/-
This file tells the ends of loading a history apart. What cannot be read leaves the recorder as it was,
but a value that is no history is taken over as far as it goes.
-/

import ChipEight.Proofs.Files.Contents
import ChipEight.Proofs.Recorder.Steady
import ChipEight.Recorder.Archive

namespace ChipEight

namespace Recorder

/-! ### Snapshots -/

/-- A mapping whose registers are a mapping as well, if it has any. -/
def IsRecord (state : Value) : Prop :=
  ∃ entries registers, state = .dict entries ∧
    (Entries.find? entries (.text "registers")).getD (.dict []) = .dict registers

/-- The values under a name can be collected from mappings. -/
theorem holding_fields (name : String) {states : List Value}
    (shaped : ∀ state ∈ states, ∃ entries, state = .dict entries) :
    holding name states =
      .ok (states.filterMap fun state => (state.field? name).map fun value => (state, value)) := by
  induction states with
  | nil => rfl
  | cons state rest ih =>
      obtain ⟨⟨entries, rfl⟩, others⟩ := List.forall_mem_cons.mp shaped
      have field : (Value.dict entries).field? name = Entries.find? entries (.text name) := rfl
      unfold holding
      rw [Value.contains_dict, Entries.has, List.filterMap_cons, field, ih others]
      cases found : Entries.find? entries (.text name) with
      | none => rfl
      | some value =>
          simp only [Option.isSome_some, Value.item_dict found, bind, Except.bind, pure, Except.pure, if_true,
            Option.map_some]

/-- The names after those of the registers of one more snapshot. -/
def namesAfter (known : List Key) (state : Value) : Except Fault (List Key) := do
  let registers ← (← state.getOr "registers" (.dict [])).entriesOf
  pure (addNames known (Entries.names registers))

/-- A snapshot gives the names of its registers, or has no such part. -/
theorem namesAfter_cases (known : List Key) (state : Value) :
    (IsRecord state ∧ ∃ names, namesAfter known state = .ok names) ∨
      ¬ IsRecord state ∧ namesAfter known state = .error .noMember := by
  unfold namesAfter
  rcases state.entries_cases with ⟨entries, rfl⟩ | shapeless
  · rw [Value.getOr_dict]
    rcases Value.entries_cases ((Entries.find? entries (.text "registers")).getD (.dict [])) with
      ⟨registers, named⟩ | nameless
    · rw [named]
      exact .inl ⟨⟨entries, registers, rfl, named⟩, _, rfl⟩
    · refine .inr ⟨?_, ?_⟩
      · rintro ⟨_, registers, ⟨⟩, named⟩
        rw [named] at nameless
        exact nomatch nameless
      · simp only [bind, Except.bind, Value.entriesOf_shapeless nameless]
  · refine .inr ⟨?_, ?_⟩
    · rintro ⟨entries, _, rfl, -⟩
      exact nomatch shapeless
    · simp only [bind, Except.bind, Value.getOr_shapeless shapeless]

/-- The names of registers are collected from all snapshots, unless one of them has none to give. -/
theorem names_cases (known : List Key) (states : List Value) :
    ((∀ state ∈ states, IsRecord state) ∧ ∃ names, states.foldlM namesAfter known = .ok names) ∨
      (¬ ∀ state ∈ states, IsRecord state) ∧ states.foldlM namesAfter known = .error .noMember := by
  induction states generalizing known with
  | nil => exact .inl ⟨nofun, known, rfl⟩
  | cons state rest ih =>
      rw [List.foldlM_cons, List.forall_mem_cons]
      rcases namesAfter_cases known state with ⟨shaped, names, given⟩ | ⟨broken, fails⟩
      · rw [given]
        rcases ih names with ⟨others, result⟩ | ⟨others, result⟩
        · exact .inl ⟨⟨shaped, others⟩, result⟩
        · exact .inr ⟨fun all => others all.2, result⟩
      · rw [fails]
        exact .inr ⟨fun all => broken all.1, rfl⟩

variable {recorder after : Recorder} {saved : Value} {entries : Entries} {items : List Value}

theorem withNames_cases (recorder : Recorder) :
    ((∀ state ∈ recorder.history.toList, IsRecord state) ∧
        ∃ names, recorder.withNames = .ok { recorder with registers := names }) ∨
      (¬ ∀ state ∈ recorder.history.toList, IsRecord state) ∧
        recorder.withNames = .error .noMember := by
  have unfolded : recorder.withNames = (do
      let names ← recorder.history.toList.foldlM namesAfter []
      pure { recorder with registers := names }) := rfl
  rw [unfolded]
  rcases names_cases [] recorder.history.toList with ⟨shaped, names, given⟩ | ⟨broken, fails⟩
  · rw [given]
    exact .inl ⟨shaped, names, rfl⟩
  · rw [fails]
    exact .inr ⟨broken, rfl⟩

/-- The cycles of mappings can be told. -/
theorem withCycles_cases (recorder : Recorder) :
    (∃ first last, recorder.withCycles =
        .ok { recorder with firstCycle := first, lastCycle := last }) ∨
      (¬ ∀ state ∈ recorder.history.toList, IsRecord state) ∧
        ∃ fault, recorder.withCycles = .error fault := by
  unfold withCycles column
  cases cycles : holding "cycle" recorder.history.toList with
  | ok found => exact .inl ⟨_, _, rfl⟩
  | error fault =>
      refine .inr ⟨?_, fault, rfl⟩
      intro shaped
      have given := holding_fields "cycle" fun state member =>
        (shaped state member).imp fun entries ⟨_, same, _⟩ => same
      exact nomatch cycles.symm.trans given

/-! ### Saved values -/

/-- The snapshots that a saved mapping has. -/
def savedItems (entries : Entries) : Except Fault (List Value) :=
  ((Entries.find? entries (.text "history")).getD (.list [])).parts

/-- A value is a history for a recorder with a limit: a mapping with snapshots in a row and counts by
name, if it has any, where all snapshots that the limit leaves are mappings. -/
def IsHistory (limit : Option Nat) (saved : Value) : Prop :=
  ∃ entries items counts, saved = .dict entries ∧ savedItems entries = .ok items ∧
    (Entries.find? entries (.text "statistics")).getD (.dict []) = .dict counts ∧
    ∀ state ∈ (bounded limit items.toArray).toList, IsRecord state

/-- The recorder with the snapshots and the samples of a saved mapping, of which nothing is counted. -/
def replaced (recorder : Recorder) (entries : Entries) (items : List Value) : Recorder :=
  { recorder with
    history := bounded recorder.limit items.toArray
    compressed := (Entries.find? entries (.text "compressed")).getD (.list []) }

/-- What was set when a recorder was made. -/
def settings (recorder : Recorder) : Option Nat × Value × Value × Value :=
  (recorder.limit, recorder.limitGiven, recorder.ratio, recorder.filter)

/-- What comes of taking a saved value over. -/
inductive TakenOver (recorder : Recorder) (saved : Value) : Recorder → Except Fault Unit → Prop
  | refused (fault : Fault)
      (bare : ∀ entries items, saved = .dict entries → savedItems entries ≠ .ok items) :
      TakenOver recorder saved recorder (.error fault)
  | halfway (entries : Entries) (items : List Value) (total first last : Value) (fault : Fault)
      (mapping : saved = .dict entries) (listed : savedItems entries = .ok items)
      (broken : ¬ IsHistory recorder.limit saved) :
      TakenOver recorder saved
        { recorder.replaced entries items with total := total, firstCycle := first, lastCycle := last }
        (.error fault)
  | whole (entries counts : Entries) (items : List Value) (first last : Value) (names : List Key)
      (mapping : saved = .dict entries) (listed : savedItems entries = .ok items)
      (counted : (Entries.find? entries (.text "statistics")).getD (.dict []) = .dict counts)
      (shaped : ∀ state ∈ (bounded recorder.limit items.toArray).toList, IsRecord state) :
      TakenOver recorder saved
        { recorder.replaced entries items with
          total := (Entries.find? counts (.text "total_records")).getD
            (.int (bounded recorder.limit items.toArray).size)
          firstCycle := first, lastCycle := last, registers := names }
        (.ok ())

theorem withHistory_listed (listed : savedItems entries = .ok items) :
    recorder.withHistory (.dict entries) =
      .ok { recorder with history := bounded recorder.limit items.toArray } := by
  unfold withHistory
  rw [Value.getOr_dict]
  simp only [bind, Except.bind]
  rw [show ((Entries.find? entries (.text "history")).getD (.list [])).parts = _ from listed]
  rfl

theorem withTotal_counted {counts : Entries} (recorder : Recorder)
    (counted : (Entries.find? entries (.text "statistics")).getD (.dict []) = .dict counts) :
    recorder.withTotal (.dict entries) =
      .ok { recorder with
        total := (Entries.find? counts (.text "total_records")).getD (.int recorder.history.size) } := by
  unfold withTotal
  rw [Value.getOr_dict, counted]
  rfl

theorem withTotal_shapeless (recorder : Recorder)
    (shapeless : ((Entries.find? entries (.text "statistics")).getD (.dict [])).entries? = none) :
    recorder.withTotal (.dict entries) = .error .noMember := by
  unfold withTotal
  simp only [Value.getOr_dict, bind, Except.bind, Value.getOr_shapeless shapeless]

/-- A mapping with snapshots in a row replaces the history, whatever else it has. -/
theorem takeOver_listed (recorder : Recorder) (listed : savedItems entries = .ok items) :
    recorder.takeOver (.dict entries) =
      (recorder.replaced entries items).through [withTotal (.dict entries), withCycles, withNames] := by
  have kept : withCompressed (.dict entries)
      { recorder with history := bounded recorder.limit items.toArray } =
        .ok (recorder.replaced entries items) := rfl
  unfold takeOver
  rw [through, withHistory_listed listed]
  dsimp only
  rw [through, kept]

/-- A value is a mapping with snapshots in a row, or nothing of it is taken over. -/
theorem savedItems_cases (recorder : Recorder) (saved : Value) :
    (∃ entries items, saved = .dict entries ∧ savedItems entries = .ok items) ∨
      (∀ entries items, saved = .dict entries → savedItems entries ≠ .ok items) ∧
        ∃ fault, recorder.takeOver saved = (recorder, .error fault) := by
  have refused {fault : Fault} (fails : withHistory saved recorder = .error fault) :
      recorder.takeOver saved = (recorder, .error fault) := by
    rw [takeOver, through, fails]
  rcases saved.entries_cases with ⟨entries, rfl⟩ | shapeless
  case inr =>
    refine .inr ⟨?_, .noMember, refused ?_⟩
    · rintro entries items rfl
      cases shapeless
    · unfold withHistory
      rw [Value.getOr_shapeless shapeless]
      rfl
  cases listed : savedItems entries with
  | ok items => exact .inl ⟨entries, items, rfl, listed⟩
  | error fault =>
      refine .inr ⟨?_, fault, refused ?_⟩
      · rintro _ items ⟨⟩ others
        cases listed.symm.trans others
      · unfold withHistory
        simp only [Value.getOr_dict, bind, Except.bind]
        rw [show ((Entries.find? entries (.text "history")).getD (.list [])).parts = _ from listed]

theorem IsHistory.shaped {limit : Option Nat} (history : IsHistory limit (.dict entries))
    (listed : savedItems entries = .ok items) :
    ∀ state ∈ (bounded limit items.toArray).toList, IsRecord state := by
  obtain ⟨_, others, _, ⟨⟩, same, -, shaped⟩ := history
  cases listed.symm.trans same
  exact shaped

theorem IsHistory.counted {limit : Option Nat} (history : IsHistory limit (.dict entries)) :
    ∃ counts, (Entries.find? entries (.text "statistics")).getD (.dict []) = .dict counts := by
  obtain ⟨_, _, counts, ⟨⟩, -, counted, -⟩ := history
  exact ⟨counts, counted⟩

theorem takeOver_cases (recorder : Recorder) (saved : Value) :
    recorder.TakenOver saved (recorder.takeOver saved).1 (recorder.takeOver saved).2 := by
  rcases recorder.savedItems_cases saved with ⟨entries, items, rfl, listed⟩ | ⟨bare, fault, fails⟩
  case inr =>
    rw [fails]
    exact .refused fault bare
  -- What fails from here on leaves the recorder with another history.
  rw [recorder.takeOver_listed listed]
  rcases Value.entries_cases ((Entries.find? entries (.text "statistics")).getD (.dict [])) with
    ⟨counts, counted⟩ | uncounted
  case inr =>
    rw [through, withTotal_shapeless _ uncounted]
    refine .halfway entries items recorder.total recorder.firstCycle recorder.lastCycle _ rfl listed ?_
    intro history
    obtain ⟨counts, counted⟩ := history.counted
    rw [counted] at uncounted
    cases uncounted
  rw [through, withTotal_counted _ counted]
  dsimp only
  generalize totals : (Entries.find? counts (.text "total_records")).getD
    (.int (recorder.replaced entries items).history.size) = total
  rw [through]
  rcases withCycles_cases { recorder.replaced entries items with total := total } with
    ⟨first, last, cycled⟩ | ⟨broken, fault, fails⟩
  case inr =>
    rw [fails]
    exact .halfway entries items total recorder.firstCycle recorder.lastCycle fault rfl listed
      fun history => broken (history.shaped listed)
  rw [cycled]
  dsimp only
  rw [through]
  rcases withNames_cases { recorder.replaced entries items with
      total := total, firstCycle := first, lastCycle := last } with
    ⟨shaped, names, named⟩ | ⟨broken, fails⟩
  case inr =>
    rw [fails]
    exact .halfway entries items total first last _ rfl listed fun history => broken (history.shaped listed)
  rw [named, ← totals]
  exact .whole entries counts items first last names rfl listed counted shaped

/-! ### Loading -/

variable {files : Files} {path : String}

theorem readValue_json (named : Text.lower (Path.extension path) = ".json") :
    readValue files path = some (do
      let text ← files.readText path
      (Json.read text).mapError (Fault.ofJson text)) := by
  simp [readValue, named]

theorem readValue_archive (named : Text.lower (Path.extension path) ∈ [".pkl", ".pickle"]) :
    readValue files path = some (do ofArchive (← files.read path)) := by
  simp only [List.mem_cons, List.not_mem_nil, or_false] at named
  rcases named with named | named <;> simp [readValue, named]

/-- Without an extension of a history, nothing is read. -/
theorem load_unknown (recorder : Recorder) (unknown : readValue files path = none) :
    (recorder.load files (.text path)).recorder = recorder ∧
      (recorder.load files (.text path)).result = .ok false := by
  unfold load
  dsimp only
  rw [unknown]
  exact ⟨rfl, rfl⟩

theorem load_unread (recorder : Recorder) {fault : Fault}
    (unread : readValue files path = some (.error fault)) :
    (recorder.load files (.text path)).recorder = recorder ∧
      (recorder.load files (.text path)).result = if isNoted fault then .ok false else .error fault := by
  unfold load
  dsimp only
  rw [unread]
  dsimp only
  split <;> exact ⟨rfl, rfl⟩

theorem load_read (recorder : Recorder) (read : readValue files path = some (.ok saved)) :
    (recorder.load files (.text path)).recorder = (recorder.takeOver saved).1 ∧
      (recorder.load files (.text path)).result = (recorder.takeOver saved).2.map fun _ => true := by
  unfold load
  dsimp only
  rw [read]
  dsimp only
  rcases recorder.takeOver saved with ⟨after, fault | ⟨⟩⟩ <;> exact ⟨rfl, rfl⟩

/-- Loading a file gives true exactly if the file can be read and holds a history, which then replaces the
old one. It gives false exactly if the file has no extension of a history, or cannot be read for a reason
that is noted, and then the recorder stays as it was. Otherwise it ends with a fault: the recorder stays
as it was if the file cannot be read, or holds no mapping with snapshots in a row. A mapping with
snapshots in a row that is no history leaves its snapshots and samples to the recorder, which still has
the names of its registers from before. Nothing ever changes the settings. -/
theorem load_ends (recorder : Recorder) (files : Files) (path : String) :
    let content := readValue files path
    let loaded := recorder.load files (.text path)
    (loaded.result = .ok true ↔
      ∃ saved, content = some (.ok saved) ∧ IsHistory recorder.limit saved) ∧
    (loaded.result = .ok true → ∃ entries items, content = some (.ok (.dict entries)) ∧
      savedItems entries = .ok items ∧
      loaded.recorder.history = (recorder.replaced entries items).history ∧
      loaded.recorder.compressed = (recorder.replaced entries items).compressed) ∧
    (loaded.result = .ok false ↔
      content = none ∨ ∃ fault, content = some (.error fault) ∧ isNoted fault = true) ∧
    (loaded.result = .ok false → loaded.recorder = recorder) ∧
    (∀ fault, loaded.result = .error fault →
      (loaded.recorder = recorder ∧ (content = some (.error fault) ∨ ∃ saved, content = some (.ok saved) ∧
        ∀ entries items, saved = .dict entries → savedItems entries ≠ .ok items)) ∨
      ∃ entries items, content = some (.ok (.dict entries)) ∧ savedItems entries = .ok items ∧
        ¬ IsHistory recorder.limit (.dict entries) ∧
        loaded.recorder.history = (recorder.replaced entries items).history ∧
        loaded.recorder.compressed = (recorder.replaced entries items).compressed ∧
        loaded.recorder.registers = recorder.registers) ∧
    loaded.recorder.settings = recorder.settings := by
  intro content loaded
  cases read : readValue files path with
  | none =>
      obtain ⟨kept, ends⟩ := recorder.load_unknown read
      simp [loaded, kept, ends, show content = none from read]
  | some outcome =>
  cases outcome with
  | error fault =>
      obtain ⟨kept, ends⟩ := recorder.load_unread read
      cases noted : isNoted fault <;>
        simp [loaded, kept, ends, noted, show content = some (.error fault) from read]
  | ok saved =>
      obtain ⟨kept, ends⟩ := recorder.load_read read
      have course := recorder.takeOver_cases saved
      rw [← kept] at course
      change loaded.result = _ at ends
      change recorder.TakenOver saved loaded.recorder _ at course
      generalize (recorder.takeOver saved).2 = result at course ends
      generalize loaded.recorder = after at course ⊢
      rw [ends, show content = some (.ok saved) from read]
      cases course with
      | refused fault bare =>
          have unlike : ¬ IsHistory recorder.limit saved := by
            rintro ⟨entries, items, _, mapping, listed, -⟩
            exact bare entries items mapping listed
          refine ⟨⟨nofun, ?_⟩, nofun, ⟨nofun, ?_⟩, nofun, ?_, rfl⟩
          · rintro ⟨_, ⟨⟩, like⟩
            exact absurd like unlike
          · rintro (missing | ⟨_, ⟨⟩, _⟩)
            exact nomatch missing
          · rintro _ ⟨⟩
            exact .inl ⟨rfl, .inr ⟨saved, rfl, bare⟩⟩
      | halfway entries items total first last fault mapping listed broken =>
          subst mapping
          refine ⟨⟨nofun, ?_⟩, nofun, ⟨nofun, ?_⟩, nofun, ?_, rfl⟩
          · rintro ⟨_, ⟨⟩, like⟩
            exact absurd like broken
          · rintro (missing | ⟨_, ⟨⟩, _⟩)
            exact nomatch missing
          · rintro _ ⟨⟩
            exact .inr ⟨entries, items, rfl, listed, broken, rfl, rfl, rfl⟩
      | whole entries counts items first last names mapping listed counted shaped =>
          subst mapping
          have like : IsHistory recorder.limit (.dict entries) :=
            ⟨entries, items, counts, rfl, listed, counted, shaped⟩
          refine ⟨⟨fun _ => ⟨_, rfl, like⟩, fun _ => rfl⟩,
            fun _ => ⟨entries, items, rfl, listed, rfl, rfl⟩, ⟨nofun, ?_⟩, nofun, nofun, rfl⟩
          rintro (missing | ⟨_, ⟨⟩, _⟩)
          exact nomatch missing

/-- A file whose counts are no mapping takes the history away from a recorder, and then loading it
fails. -/
theorem load_takes_history :
    ∃ start, make (.int 4) (.int 10) .null = .ok start ∧
      let recorder := (start.record (Value.record [("cycle", .int 5)])).1
      let files : Files := ⟨[(["h.json"], .file (.ofText "\x7b\"statistics\": 3\x7d"))]⟩
      let loaded := recorder.load files (.text "h.json")
      recorder.history.size = 1 ∧ loaded.result = .error .noMember ∧
        loaded.recorder.history.size = 0 := by
  refine ⟨_, make_whole 10 .null (show limitOf (.int 4) = .ok (some 4) from rfl), ?_⟩
  intro recorder files loaded
  have found : files.read "h.json" = .ok (.ofText "\x7b\"statistics\": 3\x7d") :=
    Files.read_name (by constructor <;> decide) rfl
  have text : Files.textOf (.ofText "\x7b\"statistics\": 3\x7d") = .ok "\x7b\"statistics\": 3\x7d" :=
    Files.textOf_ofText (by decide)
  have read : readValue files "h.json" = some (.ok (Value.record [("statistics", .int 3)])) := by
    rw [readValue_json (by decide +kernel), Files.readText, found]
    simp only [bind, Except.bind, text]
    rfl
  obtain ⟨taken, ends⟩ := recorder.load_read read
  exact ⟨rfl, ends, congrArg (fun after => after.history.size) taken⟩

end Recorder

end ChipEight
