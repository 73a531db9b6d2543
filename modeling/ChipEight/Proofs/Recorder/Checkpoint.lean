/-
This file shows that a saved history gives a fresh recorder all that the saved one holds, so that both take
every later snapshot alike.
-/

import ChipEight.Proofs.Json.Pages
import ChipEight.Proofs.Recorder.Recalling
import ChipEight.Proofs.Value.Entries

namespace ChipEight

namespace Recorder

/-! ### Kinds of snapshots -/

/-- The names that a mapping gives are those of its registers. -/
theorem namesIn_cases {entries : Entries} {keys : List Key}
    (named : namesIn (.dict entries) = .ok keys) :
    keys = [] ∨ ∃ registers, Entries.find? entries (.text "registers") = some (.dict registers) ∧
      keys = Entries.names registers := by
  rw [namesIn_registersOf named]
  unfold registersOf Value.field?
  dsimp only
  cases Entries.find? entries (.text "registers") with
  | none => exact .inl rfl
  | some value =>
      rcases value.entries_cases with ⟨registers, rfl⟩ | shapeless
      · exact .inr ⟨registers, rfl, rfl⟩
      · exact .inl (by rw [Option.bind_some, shapeless]; rfl)

/-- A mapping whose registers, if they are a mapping, have texts for names. -/
def IsNamed (state : Value) : Prop :=
  ∃ entries, state = .dict entries ∧
    ∀ registers, Entries.find? entries (.text "registers") = some (.dict registers) →
      ∀ key ∈ Entries.names registers, ∃ name, key = .text name

/-- The kind for archives. -/
def Kind.archived : Kind where
  has := IsNamed
  names _ := True
  mapping _ shaped := shaped.imp fun _ parts => parts.1
  picked := by
    rintro filter _ kept ⟨entries, rfl, proper⟩ picked
    rcases filtered_cases picked with rfl | ⟨registers, fewer, found, part, rfl⟩
    · exact ⟨entries, rfl, proper⟩
    · refine ⟨_, rfl, fun others same key member => ?_⟩
      rw [Entries.findPutSame] at same
      cases same
      exact proper registers found key ((part.map Prod.fst).subset member)
  named := by
    rintro _ keys ⟨entries, rfl, proper⟩ named key member
    rcases namesIn_cases named with rfl | ⟨registers, found, rfl⟩
    · exact nomatch member
    · obtain ⟨name, same⟩ := proper registers found key member
      exact ⟨name, same, trivial⟩

/-- The kind for pages: the mappings that a text can give back two collections deep. -/
def Kind.paged : Kind where
  has state := (∃ entries, state = .dict entries) ∧ Json.Readable (Json.deepest - 2) state
  names name := Json.Unpaired name.toList
  mapping _ shaped := shaped.1
  picked := by
    rintro filter _ kept ⟨⟨entries, rfl⟩, readable⟩ picked
    rcases filtered_cases picked with rfl | ⟨registers, fewer, found, part, rfl⟩
    · exact ⟨⟨entries, rfl⟩, readable⟩
    · obtain ⟨present, member⟩ := Entries.find?_mem found
      have old := (Json.readableEntries_iff.mp readable.2.2 _ member).2
      exact ⟨⟨_, rfl⟩, Json.readable_put readable (by rw [found]; rfl) (Json.readable_sublist old part)⟩
  named := by
    rintro _ keys ⟨⟨entries, rfl⟩, readable⟩ named key member
    rcases namesIn_cases named with rfl | ⟨registers, found, rfl⟩
    · exact nomatch member
    · obtain ⟨present, within⟩ := Entries.find?_mem found
      have all := (Json.readableEntries_iff.mp readable.2.2 _ within).2
      obtain ⟨entry, inside, rfl⟩ := List.mem_map.mp member
      exact (Json.readableEntries_iff.mp all.2.2 entry inside).1

/-! ### Forms -/

/-- The forms of a saved history that can be loaded. -/
inductive Form where
  | archive
  | page

namespace Form

def format : Form → String
  | archive => "pickle"
  | page => "json"

def extensions : Form → List String
  | archive => [".pkl", ".pickle"]
  | page => [".json"]

def kind : Form → Kind
  | archive => .archived
  | page => .paged

/-- A recorder can be saved in a form after so many deeds: on a page, its ratio and its counts have to be
such as are shown. -/
def Fits (fresh : Recorder) (count : Nat) : Form → Prop
  | archive => True
  | page => Json.Readable (Json.deepest - 2) fresh.ratio ∧ count < Numeral.firstUnshown

/-- How deep a value may be that is saved in a form. -/
def depth (depths : Depths) : Form → Nat
  | archive => depths.archive
  | page => depths.page

/-- What ends the saving of a value that is too deep. -/
def tooDeep : Form → Fault
  | archive => .deep .archive
  | page => .deep .page

theorem depth_counts (form : Form) (depths : Depths) : 4 ≤ form.depth depths :=
  match form with
  | archive => depths.counts.2
  | page => depths.counts.1

end Form

/-! ### What is saved -/

variable {kind : Kind} {fresh recorder : Recorder} {count : Nat}

theorem texts_of_keys {keys : List Key} {proper : String → Prop}
    (texts : ∀ key ∈ keys, ∃ name, key = .text name ∧ proper name) :
    ∃ names : List String, keys = names.map .text ∧ ∀ name ∈ names, proper name := by
  induction keys with
  | nil => exact ⟨[], rfl, nofun⟩
  | cons key rest ih =>
      obtain ⟨⟨name, rfl, good⟩, others⟩ := List.forall_mem_cons.mp texts
      obtain ⟨names, rfl, all⟩ := ih others
      exact ⟨name :: names, rfl, List.forall_mem_cons.mpr ⟨good, all⟩⟩

theorem sortedRegisters_texts {names : List String} (texts : recorder.registers = names.map .text) :
    recorder.sortedRegisters = .ok (sortedTexts names) := by
  unfold sortedRegisters
  rw [texts]
  refine Eq.trans (congrArg (fun read => Except.bind read fun names => .ok (sortedTexts names))
    (?_ : _ = Except.ok names)) rfl
  clear texts
  induction names with
  | nil => rfl
  | cons name rest ih =>
      rw [List.map_cons, List.mapM_cons, ih]
      rfl

/-- The counts of a recorder that are saved with it. -/
def counts (recorder : Recorder) (cycles : Value) (samples : Nat) (names : List String) : Entries := [
  (.text "total_records", recorder.total), (.text "total_cycles", cycles),
  (.text "current_history_size", .int recorder.history.size),
  (.text "max_history_size", recorder.limitGiven), (.text "compression_ratio", recorder.ratio),
  (.text "compressed_history_size", .int samples), (.text "unique_registers", .texts names)]

/-- What is saved of a recorder besides its settings. -/
def image (recorder : Recorder) (samples : List Value) (counts : Entries) : Entries := [
  (.text "history", .list recorder.history.toList), (.text "compressed", .list samples),
  (.text "statistics", .dict counts)]

/-- A snapshot is in the history or among the samples. -/
def Holds (recorder : Recorder) (state : Value) : Prop :=
  state ∈ recorder.history ∨ ∃ samples, recorder.compressed = .list samples ∧ state ∈ samples

/-- Statistics can be given if cycles and samples can be counted and the names of registers have an order. -/
theorem statistics_sized {cycles : Value} (counted : recorder.totalCycles = .ok cycles) {samples : Nat}
    (length : recorder.compressed.length = .ok samples) {names : List String}
    (sorted : recorder.sortedRegisters = .ok names) :
    recorder.statistics = .ok (.dict (counts recorder cycles samples names)) := by
  unfold statistics
  simp only [counted, length, sorted, bind, Except.bind, pure, Except.pure]
  rfl

theorem statistics_counts {cycles : Value} (counted : recorder.totalCycles = .ok cycles)
    {samples : List Value} (listed : recorder.compressed = .list samples) {names : List String}
    (sorted : recorder.sortedRegisters = .ok names) :
    recorder.statistics = .ok (.dict (counts recorder cycles samples.length names)) :=
  statistics_sized counted (by rw [listed]; rfl) sorted

/-- A recorder can be saved if its cycles can be counted. -/
theorem toValue_reached (reached : Reached kind fresh count recorder) {cycles : Value}
    (counted : recorder.totalCycles = .ok cycles) :
    ∃ samples names, recorder.compressed = .list samples ∧ samples.length ≤ count ∧
      (∀ state ∈ samples, kind.has state) ∧ (∀ name ∈ names, kind.names name) ∧
      recorder.toValue = .ok (.dict (image recorder samples
        (counts recorder cycles samples.length names))) := by
  obtain ⟨samples, listed, few, all⟩ := reached.samples
  obtain ⟨names, texts, proper⟩ := texts_of_keys reached.names
  refine ⟨samples, sortedTexts names, listed, few, all, ?_, ?_⟩
  · intro name member
    exact proper name (List.mem_mergeSort.mp member)
  · unfold toValue
    rw [statistics_counts counted listed (sortedRegisters_texts texts), listed]
    rfl

theorem toValue_uncounted {fault : Fault} (uncounted : recorder.totalCycles = .error fault) :
    recorder.toValue = .error fault := by
  unfold toValue statistics
  rw [uncounted]
  rfl

/-- What was saved of a recorder makes one with the same settings hold the same, and tells it as much of
cycles and names as the snapshots do. -/
theorem takeOver_recalled (reached : Reached kind fresh count recorder) {samples : List Value}
    (listed : recorder.compressed = .list samples) (cycles : Value) (names : List String) :
    fresh.takeOver (.dict (image recorder samples (counts recorder cycles samples.length names))) =
      (recorder.recalled, .ok ()) := by
  have limit : recorder.limit = fresh.limit := congrArg Prod.fst reached.settings
  have same : bounded fresh.limit recorder.history.toList.toArray = recorder.history := by
    rw [Array.toArray_toList, ← limit]
    exact reached.within
  have held : Alike recorder { fresh.replaced (image recorder samples
      (counts recorder cycles samples.length names)) recorder.history.toList with
        total := recorder.total } :=
    alike_of_parts reached.settings.symm same listed.symm rfl
  have shaped (state : Value) (member : state ∈ recorder.history.toList) : IsRecord state :=
    (reached.records state (Array.mem_def.mpr member)).1
  rw [takeOver_listed fresh (show savedItems _ = .ok recorder.history.toList from rfl), through,
    withTotal_counted _ rfl]
  change through { fresh.replaced _ recorder.history.toList with total := recorder.total } _ = _
  obtain ⟨first, last, registers, taken⟩ := held
  rw [taken]
  exact through_recalled shaped

/-! ### Pages of recorders -/

theorem shown_of_index {place : Int} (index : Slice.isIndex place = true) :
    place.natAbs < Numeral.firstUnshown := by
  have bound : place.natAbs < 10 ^ 20 := by
    simp [Slice.isIndex, Bits.isSigned] at index
    omega
  have width : 20 ≤ Numeral.longestDecimal := by decide
  exact Nat.lt_of_lt_of_le bound (Nat.pow_le_pow_right (by decide) width)

/-- A limit can be read. -/
theorem limit_readable {limit : Value} {most : Option Nat} (room : Nat)
    (bound : limitOf limit = .ok most) : Json.Readable room limit := by
  unfold limitOf at bound
  cases limit
  case null => trivial
  case bool flag => trivial
  case int number =>
    simp only [Value.whole?] at bound
    split at bound
    · cases bound
    case isFalse index => exact shown_of_index (by simpa using index)
  all_goals cases bound

theorem make_readable {limit ratio filter : Value} (room : Nat)
    (made : make limit ratio filter = .ok fresh) : Json.Readable room fresh.limitGiven := by
  obtain ⟨most, step, bound, rfl⟩ := make_cases made
  exact limit_readable room bound

theorem difference_readable {first second total : Value} (room : Nat)
    (difference : first.minus second = .ok total) {rounded : Double}
    (double : total.toDouble = .ok rounded) : Json.Readable room total := by
  unfold Value.minus at difference
  split at difference
  · cases difference
    exact Double.natAbs_of_ofInt? (Value.toDouble_int.mp double)
      (show 2099 ≤ Numeral.longestDecimal by decide)
  · split at difference
    case h_1 =>
      cases here : first.toDouble with
      | error fault =>
          rw [here] at difference
          cases difference
      | ok one =>
          cases there : second.toDouble with
          | error fault =>
              rw [here, there] at difference
              cases difference
          | ok other =>
              rw [here, there] at difference
              cases difference
              exact Double.sub_proper
    case h_2 => cases difference

/-- A count of cycles can be read, since it is not too large for a number with a binary point. -/
theorem cycles_readable {cycles : Value} (room : Nat) (counted : recorder.totalCycles = .ok cycles) :
    Json.Readable room cycles := by
  have zero : Json.Readable room (.int 0) := shown_of_index (by decide)
  unfold totalCycles at counted
  split at counted
  · cases counted
    exact zero
  · cases counted
    exact zero
  · cases difference : recorder.lastCycle.minus recorder.firstCycle with
    | error fault =>
        rw [difference] at counted
        cases counted
    | ok total =>
        rw [difference] at counted
        cases double : total.toDouble with
        | error fault =>
            simp only [bind, Except.bind, double] at counted
            cases counted
        | ok rounded =>
            simp only [bind, Except.bind, double] at counted
            cases counted
            exact difference_readable room difference double

/-- A recorder for pages can be read if its settings and counts can. -/
theorem image_readable (reached : Reached .paged fresh count recorder)
    (few : count < Numeral.firstUnshown) (limit : Json.Readable (Json.deepest - 2) fresh.limitGiven)
    (ratio : Json.Readable (Json.deepest - 2) fresh.ratio) {cycles : Value}
    (counted : recorder.totalCycles = .ok cycles) {samples : List Value}
    (fewer : samples.length ≤ count) (sampled : ∀ state ∈ samples, Kind.paged.has state)
    {names : List String} (proper : ∀ name ∈ names, Kind.paged.names name) :
    Json.Readable Json.deepest (.dict (image recorder samples
      (counts recorder cycles samples.length names))) := by
  obtain ⟨settings, ⟨number, total, most⟩, -, -, size, records, -⟩ := reached
  have limitGiven : recorder.limitGiven = fresh.limitGiven :=
    congrArg (fun given => given.2.1) settings
  have ratioGiven : recorder.ratio = fresh.ratio := congrArg (fun given => given.2.2.1) settings
  have shown (value : Nat) (less : value ≤ count) (room : Nat) : Json.Readable room (.int value) :=
    Nat.lt_of_le_of_lt less few
  have texts : Json.Readable (Json.deepest - 2) (.texts names) := by
    refine ⟨by decide, Json.readableItems_iff.mpr ?_⟩
    intro item member
    obtain ⟨name, inside, rfl⟩ := List.mem_map.mp member
    exact proper name inside
  have statistics : Json.Readable (Json.deepest - 1)
      (.dict (counts recorder cycles samples.length names)) := by
    have keys : (Entries.names (counts recorder cycles samples.length names)).Nodup := by
      change List.Nodup [Key.text _, .text _, .text _, .text _, .text _, .text _, .text _]
      decide
    refine ⟨by decide, keys, Json.readableEntries_iff.mpr ?_⟩
    rw [counts, limitGiven, ratioGiven, total]
    simp only [List.forall_mem_cons]
    exact ⟨⟨⟨_, rfl, by decide⟩, shown number most _⟩, ⟨⟨_, rfl, by decide⟩, cycles_readable _ counted⟩,
      ⟨⟨_, rfl, by decide⟩, shown _ size _⟩, ⟨⟨_, rfl, by decide⟩, limit⟩,
      ⟨⟨_, rfl, by decide⟩, ratio⟩, ⟨⟨_, rfl, by decide⟩, shown _ fewer _⟩,
      ⟨⟨_, rfl, by decide⟩, texts⟩, nofun⟩
  have keys : (Entries.names (image recorder samples
      (counts recorder cycles samples.length names))).Nodup := by
    change List.Nodup [Key.text _, .text _, .text _]
    decide
  refine ⟨by decide, keys, Json.readableEntries_iff.mpr ?_⟩
  rw [image]
  simp only [List.forall_mem_cons]
  refine ⟨⟨⟨_, rfl, by decide⟩, by decide, Json.readableItems_iff.mpr fun state member => ?_⟩,
    ⟨⟨_, rfl, by decide⟩, by decide, Json.readableItems_iff.mpr fun state member => ?_⟩,
    ⟨⟨_, rfl, by decide⟩, statistics⟩, nofun⟩
  · exact (records state (Array.mem_def.mpr member)).2.2
  · exact (sampled state member).2

/-! ### Depths of recorders -/

theorem depth_of_readable {value : Value} (readable : Json.Readable 0 value) : value.depth = 1 := by
  cases value
  case list => exact absurd readable.1 (Nat.lt_irrefl 0)
  case dict => exact absurd readable.1 (Nat.lt_irrefl 0)
  all_goals rfl

/-- The settings of a recorder hold no other values. -/
theorem make_shallow {limit ratio filter : Value} (made : make limit ratio filter = .ok fresh) :
    fresh.limitGiven.depth = 1 ∧ fresh.ratio.depth = 1 := by
  refine ⟨depth_of_readable (make_readable 0 made), ?_⟩
  unfold make Value.greater Value.less at made
  cases place : ratio.place? with
  | none =>
      rw [place] at made
      cases made
  | some there =>
      rw [place] at made
      obtain ⟨most, bound, rfl⟩ : ∃ most, limitOf limit = .ok most ∧ fresh =
          ⟨most, limit, if Place.less (.ofInt 1) there then ratio else .int 1, filter,
            #[], .list [], .int 0, .null, .null, []⟩ := by
        cases bound : limitOf limit with
        | error fault =>
            rw [bound] at made
            cases made
        | ok most =>
            rw [bound] at made
            cases made
            exact ⟨most, rfl, rfl⟩
      dsimp only
      split
      · exact Value.depth_of_place? place
      · rfl

/-- What is saved of a recorder is two levels deeper than the snapshots that it holds. -/
theorem image_depth {room : Nat} (reached : Reached kind fresh count recorder) (enough : 4 ≤ room)
    (limit : fresh.limitGiven.depth = 1) (ratio : fresh.ratio.depth = 1) {cycles : Value}
    (counted : recorder.totalCycles = .ok cycles) {samples : List Value}
    (listed : recorder.compressed = .list samples) (names : List String) :
    (Value.dict (image recorder samples (counts recorder cycles samples.length names))).depth ≤ room ↔
      ∀ state, recorder.Holds state → state.depth + 2 ≤ room := by
  obtain ⟨settings, ⟨number, total, -⟩, -⟩ := reached
  have limitGiven : recorder.limitGiven = fresh.limitGiven :=
    congrArg (fun given => given.2.1) settings
  have ratioGiven : recorder.ratio = fresh.ratio := congrArg (fun given => given.2.2.1) settings
  obtain ⟨inner, rfl⟩ : ∃ inner, room = inner + 2 := ⟨room - 2, by omega⟩
  obtain ⟨deeper, rfl⟩ : ∃ deeper, inner = deeper + 2 := ⟨inner - 2, by omega⟩
  have shallow {value : Value} (single : value.depth = 1) : value.depth ≤ deeper + 2 := by omega
  have texts : (Value.texts names).depth ≤ deeper + 2 := by
    refine Value.depth_list_le_iff.mpr fun item member => ?_
    obtain ⟨name, -, rfl⟩ := List.mem_map.mp member
    exact Nat.le_add_left 1 deeper
  have statistics : (Value.dict (counts recorder cycles samples.length names)).depth ≤ deeper + 3 := by
    rw [Value.depth_dict_le_iff, counts, limitGiven, ratioGiven, total]
    simp only [List.forall_mem_cons]
    exact ⟨shallow rfl, shallow (depth_of_readable (cycles_readable 0 counted)), shallow rfl, shallow limit,
      shallow ratio, shallow rfl, texts, nofun⟩
  rw [Value.depth_dict_le_iff, image]
  simp only [List.forall_mem_cons, Value.depth_list_le_iff, Nat.add_le_add_iff_right]
  constructor
  · rintro ⟨history, sampled, -⟩ state (member | ⟨others, same, member⟩)
    · exact history state (Array.mem_def.mp member)
    · cases listed.symm.trans same
      exact sampled state member
  · intro all
    exact ⟨fun state member => all state (.inl (Array.mem_def.mpr member)),
      fun state member => all state (.inr ⟨samples, listed, member⟩), statistics, nofun⟩

/-! ### Saving and loading -/

variable {depths : Depths} {files after : Files} {path : String}

theorem save_path (recorder : Recorder) (format : Value) (opens : (files.makeParent path).result = .ok ()) :
    recorder.save depths files (.text path) format =
      recorder.write depths (files.makeParent path).files path format := by
  simp only [save, opens]

/-- An archive gives back the value of the recorder. -/
theorem save_archive {value : Value} (valued : recorder.toValue = .ok value)
    (shallow : value.depth ≤ depths.archive)
    (opens : (files.makeParent path).result = .ok ())
    (written : (files.makeParent path).files.write path (.archive value) = .ok after)
    (named : Text.lower (Path.extension path) ∈ Form.archive.extensions) :
    let saved := recorder.save depths files (.text path) (.text "pickle")
    saved.result = .ok true ∧ readValue saved.files path = some (.ok value) := by
  intro saved
  have whole : saved = ⟨after, .ok true, [.saved path (.text "pickle")]⟩ := by
    simp only [saved, save_path recorder _ opens, write, valued, if_pos shallow, writeContent, written]
  rw [whole, readValue_archive named, Files.read_write written]
  exact ⟨rfl, rfl⟩

/-- A page gives back the value of the recorder. -/
theorem save_page {value : Value} (valued : recorder.toValue = .ok value)
    (shallow : value.depth ≤ depths.page) (readable : Json.Readable Json.deepest value)
    (opens : (files.makeParent path).result = .ok ())
    (written : (files.makeParent path).files.write path (.ofText (Json.page value).text) = .ok after)
    (named : Text.lower (Path.extension path) ∈ Form.page.extensions) :
    let saved := recorder.save depths files (.text path) (.text "json")
    saved.result = .ok true ∧ readValue saved.files path = some (.ok value) := by
  intro saved
  obtain ⟨done, plain, reads⟩ := Json.read_page readable
  have whole : saved = ⟨after, .ok true, [.saved path (.text "json")]⟩ := by
    simp only [saved, save_path recorder _ opens, write, valued, if_pos shallow, writeContent, written, done]
  have text : after.readText path = .ok (Json.page value).text := by
    unfold Files.readText
    rw [Files.read_write written]
    exact Files.textOf_ofText plain
  rw [whole, readValue_json (List.mem_singleton.mp named), text]
  refine ⟨rfl, ?_⟩
  simp only [bind, Except.bind, reads, Except.mapError]

theorem saveFailure_fails (files : Files) (fault : Fault) : (saveFailure files fault).result ≠ .ok true := by
  unfold saveFailure
  split <;> exact nofun

theorem save_uncounted {fault : Fault} (uncounted : recorder.totalCycles = .error fault)
    (format : Value) (opens : (files.makeParent path).result = .ok ()) :
    (recorder.save depths files (.text path) format).result ≠ .ok true := by
  rw [save_path recorder _ opens, write, toValue_uncounted uncounted]
  exact saveFailure_fails _ fault

/-- What is too deep is not saved, and the caller is told so. -/
theorem save_deep (form : Form) (reached : Reached kind fresh count recorder) {limit ratio filter : Value}
    (made : make limit ratio filter = .ok fresh) (opens : (files.makeParent path).result = .ok ())
    (accepts : ∀ content, ∃ after, (files.makeParent path).files.write path content = .ok after)
    {cycles : Value} (counted : recorder.totalCycles = .ok cycles)
    (deeper : ¬ ∀ state, recorder.Holds state → state.depth + 2 ≤ form.depth depths) :
    (recorder.save depths files (.text path) (.text form.format)).result = .error form.tooDeep := by
  obtain ⟨samples, names, listed, -, -, -, valued⟩ := toValue_reached reached counted
  obtain ⟨limited, stepped⟩ := make_shallow made
  have flat := image_depth reached (form.depth_counts depths) limited stepped counted listed names
  have deep := mt flat.mp deeper
  obtain ⟨after, written⟩ := accepts (.ofText "")
  rw [save_path recorder _ opens]
  cases form with
  | archive =>
      have more : ¬ Value.depth _ ≤ depths.archive := deep
      simp only [write, valued, Form.format, if_neg more, writeContent, written]
      rfl
  | page =>
      have more : ¬ Value.depth _ ≤ depths.page := deep
      simp only [write, valued, Form.format, if_neg more, writeContent, written]
      rfl

section

variable (form : Form) (reached : Reached form.kind fresh count recorder)
  {limit ratio filter : Value} (made : make limit ratio filter = .ok fresh) (fits : form.Fits fresh count)
  (opens : (files.makeParent path).result = .ok ())
  (accepts : ∀ content, ∃ after, (files.makeParent path).files.write path content = .ok after)
  (named : Text.lower (Path.extension path) ∈ form.extensions)

include reached made fits opens accepts named

/-- A recorder that is saved as far as its form allows is read with all it held, and with the cycles and
names that its snapshots tell. -/
theorem save_recalled {cycles : Value} (counted : recorder.totalCycles = .ok cycles)
    (shallow : ∀ state, recorder.Holds state → state.depth + 2 ≤ form.depth depths) :
    let saved := recorder.save depths files (.text path) (.text form.format)
    let loaded := fresh.load saved.files (.text path)
    saved.result = .ok true ∧ loaded.result = .ok true ∧ loaded.recorder = recorder.recalled := by
  intro saved loaded
  obtain ⟨samples, names, listed, fewer, sampled, proper, valued⟩ := toValue_reached reached counted
  obtain ⟨limited, stepped⟩ := make_shallow made
  have flat := (image_depth reached (form.depth_counts depths) limited stepped counted listed names).mpr shallow
  have read : saved.result = .ok true ∧ readValue saved.files path = some (.ok
      (.dict (image recorder samples (counts recorder cycles samples.length names)))) := by
    cases form with
    | archive =>
        obtain ⟨after, written⟩ := accepts _
        exact save_archive valued flat opens written named
    | page =>
        obtain ⟨after, written⟩ := accepts _
        obtain ⟨ratio, few⟩ := fits
        exact save_page valued flat
          (image_readable reached few (make_readable _ made) ratio counted fewer sampled proper) opens written named
  have taken := takeOver_recalled reached listed cycles names
  obtain ⟨kept, ends⟩ := fresh.load_read read.2
  rw [taken] at kept ends
  exact ⟨read.1, ends, kept⟩

/-- A recorder is saved exactly if its cycles can be counted and nothing that it holds is too deep. -/
theorem save_done_iff :
    (recorder.save depths files (.text path) (.text form.format)).result = .ok true ↔
      (∃ cycles, recorder.totalCycles = .ok cycles) ∧
        ∀ state, recorder.Holds state → state.depth + 2 ≤ form.depth depths := by
  constructor
  · intro done
    cases counted : recorder.totalCycles with
    | error fault => exact absurd done (save_uncounted counted _ opens)
    | ok cycles =>
        refine ⟨⟨cycles, rfl⟩, Classical.byContradiction fun deeper => ?_⟩
        have ends := save_deep form reached made opens accepts counted deeper
        rw [done] at ends
        cases ends
  · rintro ⟨⟨cycles, counted⟩, shallow⟩
    exact (save_recalled form reached made fits opens accepts named counted shallow).1

end

/-- A recorder that has taken snapshots and was cleared, in any order, is saved in either form exactly if
its cycles can be counted and no snapshot that it holds is too deep for the host. A new recorder with the
same settings that loads what was saved holds the same history, the same samples and the same count, and
so it does after everything that is then done with both. -/
theorem saved_history_resumes (form : Form) (depths : Depths) {limit ratio filter : Value} {fresh : Recorder}
    (made : make limit ratio filter = .ok fresh) {deeds : List Deed}
    (given : ∀ state, .record state ∈ deeds → form.kind.has state)
    (fits : form.Fits fresh deeds.length) {files : Files} {path : String}
    (named : Text.lower (Path.extension path) ∈ form.extensions)
    (opens : (files.makeParent path).result = .ok ())
    (accepts : ∀ content, ∃ after, (files.makeParent path).files.write path content = .ok after) :
    let recorder := fresh.performed deeds
    let saved := recorder.save depths files (.text path) (.text form.format)
    let loaded := fresh.load saved.files (.text path)
    (saved.result = .ok true ↔ (∃ cycles, recorder.totalCycles = .ok cycles) ∧
      ∀ state, recorder.Holds state → state.depth + 2 ≤ form.depth depths) ∧
    ((∃ cycles, recorder.totalCycles = .ok cycles) →
      (∃ state, recorder.Holds state ∧ form.depth depths < state.depth + 2) →
      saved.result = .error form.tooDeep) ∧
    (saved.result = .ok true → loaded.result = .ok true ∧
      loaded.recorder.history = recorder.history ∧
      loaded.recorder.compressed = recorder.compressed ∧ loaded.recorder.total = recorder.total ∧
      ∀ more, (loaded.recorder.performed more).history = (recorder.performed more).history ∧
        (loaded.recorder.performed more).compressed = (recorder.performed more).compressed) := by
  intro recorder saved loaded
  have reached : Reached form.kind fresh deeds.length recorder := reached_performed made given
  have exactly : saved.result = .ok true ↔ _ := save_done_iff form reached made fits opens accepts named
  refine ⟨exactly, ?_, fun done => ?_⟩
  · rintro ⟨cycles, counted⟩ ⟨state, held, deep⟩
    exact save_deep form reached made opens accepts counted fun all => absurd (all state held) (Nat.not_le.mpr deep)
  · obtain ⟨⟨cycles, counted⟩, shallow⟩ := exactly.mp done
    obtain ⟨-, ends, same⟩ :
        saved.result = .ok true ∧ loaded.result = .ok true ∧ loaded.recorder = recorder.recalled :=
      save_recalled form reached made fits opens accepts named counted shallow
    have alike : Alike recorder loaded.recorder := ⟨_, _, _, same⟩
    obtain ⟨history, compressed, total⟩ := alike.parts
    refine ⟨ends, history, compressed, total, fun more => ?_⟩
    obtain ⟨later, samples, -⟩ := (performed_alike more alike).parts
    exact ⟨later, samples⟩

/-- A snapshot of a cycle with one register. -/
def glance (cycle register : Int) : Value :=
  Value.record [("cycle", .int cycle), ("registers", Value.record [("V0", .int register)])]

theorem glance_paged {cycle register : Int} (first : Slice.isIndex cycle = true)
    (second : Slice.isIndex register = true) : Kind.paged.has (glance cycle register) := by
  have name (text : String) (plain : Json.Unpaired text.toList) :
      ∃ name, Key.text text = .text name ∧ Json.Unpaired name.toList := ⟨text, rfl, plain⟩
  have inner : Json.Readable (Json.deepest - 3) (Value.record [("V0", .int register)]) :=
    ⟨by decide, show List.Nodup [Key.text "V0"] by decide, name "V0" (by decide),
      shown_of_index second, trivial⟩
  exact ⟨⟨_, rfl⟩, by decide, show List.Nodup [Key.text "cycle", .text "registers"] by decide,
    name "cycle" (by decide), shown_of_index first, name "registers" (by decide), inner, trivial⟩

theorem counted_of {first last total : Value} {rounded : Double}
    (difference : last.minus first = .ok total) (double : total.toDouble = .ok rounded) :
    (do
      let total ← last.minus first
      let _ ← total.toDouble
      pure total) = Except.ok total := by
  rw [difference]
  change (do
    let _ ← total.toDouble
    pure total) = _
  rw [double]
  rfl

/-- Cycles that are whole numbers are counted if there are not too many. -/
theorem totalCycles_int {first last : Int} (start : recorder.firstCycle = .int first)
    (stop : recorder.lastCycle = .int last) (few : (last - first).natAbs < Double.fractionCount) :
    recorder.totalCycles = .ok (.int (last - first)) := by
  obtain ⟨number, rounded⟩ := Option.isSome_iff_exists.mp (Double.ofInt?_isSome few)
  unfold totalCycles
  rw [start, stop]
  exact counted_of rfl (Value.toDouble_int.mpr rounded)

/-- Hosts that are set up as usual have room for glances. -/
theorem glances_shallow (form : Form) (times samples : List (Int × Int))
    (history : recorder.history.toList = times.map fun time => glance time.1 time.2)
    (compressed : recorder.compressed = .list (samples.map fun time => glance time.1 time.2))
    (state : Value) (held : recorder.Holds state) : state.depth + 2 ≤ form.depth .usual := by
  have member : ∃ cycle register, state = glance cycle register := by
    rcases held with member | ⟨others, same, member⟩
    · rw [Array.mem_def, history] at member
      obtain ⟨time, -, rfl⟩ := List.mem_map.mp member
      exact ⟨_, _, rfl⟩
    · cases compressed.symm.trans same
      obtain ⟨time, -, rfl⟩ := List.mem_map.mp member
      exact ⟨_, _, rfl⟩
  obtain ⟨cycle, register, rfl⟩ := member
  have depth : (glance cycle register).depth = 3 := rfl
  rw [depth]
  cases form <;> decide

/-- A recorder of two snapshots that has taken three, with every second one for a sample. -/
theorem saved_history_resumes_page :
    ∃ fresh, make (.int 2) (.int 2) .null = .ok fresh ∧
      let recorder := fresh.performed
        [.record (glance 5 1), .record (glance 6 2), .record (glance 7 3)]
      let saved := recorder.save .usual ⟨[]⟩ (.text "h.json") (.text "json")
      let loaded := fresh.load saved.files (.text "h.json")
      loaded.result = .ok true ∧ loaded.recorder.history = #[glance 6 2, glance 7 3] ∧
        loaded.recorder.compressed = .list [glance 6 2] ∧ loaded.recorder.total = .int 3 := by
  refine ⟨_, make_whole 2 .null (show limitOf (.int 2) = .ok (some 2) from rfl), ?_⟩
  have named : Files.IsName "h.json" := by constructor <;> decide
  have given : ∀ state, Deed.record state ∈
      [.record (glance 5 1), .record (glance 6 2), .record (glance 7 3)] → Form.page.kind.has state := by
    simp only [List.mem_cons, Deed.record.injEq, List.not_mem_nil, or_false]
    rintro state (rfl | rfl | rfl) <;> exact glance_paged (by decide) (by decide)
  generalize start : (⟨some 2, .int 2, .int (max 1 2), .null, #[], .list [], .int 0, .null, .null, []⟩ :
    Recorder) = fresh
  intro recorder saved loaded
  have counted : recorder.totalCycles = .ok (.int 2) :=
    totalCycles_int (show recorder.firstCycle = .int 5 by subst start; rfl)
      (show recorder.lastCycle = .int 7 by subst start; rfl) (by decide)
  have free : Files.node? ⟨[]⟩ ["h.json"] ≠ some .directory := by
    rw [show Files.node? ⟨[]⟩ ["h.json"] = none from rfl]
    exact nofun
  have made : make (.int 2) (.int 2) .null = .ok fresh := by
    subst start
    exact make_whole 2 .null (show limitOf (.int 2) = .ok (some 2) from rfl)
  have shallow : ∀ state, recorder.Holds state → state.depth + 2 ≤ Form.page.depth .usual :=
    glances_shallow .page [(6, 2), (7, 3)] [(6, 2)] (by subst start; rfl)
      (by subst start; rfl)
  have resumes := saved_history_resumes .page .usual made given
    ⟨by subst start; exact shown_of_index (by decide),
      shown_of_index (show Slice.isIndex 3 = true by decide)⟩
    (show Text.lower (Path.extension "h.json") ∈ Form.page.extensions by decide +kernel)
    (show (Files.makeParent ⟨[]⟩ "h.json").result = .ok () from rfl)
    fun content => ⟨_, Files.write_name named free content⟩
  obtain ⟨saves, -, faithful⟩ := resumes
  obtain ⟨ends, history, compressed, total, -⟩ := faithful (saves.mpr ⟨⟨.int 2, counted⟩, shallow⟩)
  refine ⟨ends, history.trans ?_, compressed.trans ?_, total.trans ?_⟩ <;> subst start <;> rfl

/-- Texts have no difference, so a recorder that was given such cycles is not saved. -/
theorem text_cycle_unsaved :
    ∃ fresh, make (.int 4) (.int 10) .null = .ok fresh ∧
      Kind.paged.has (Value.record [("cycle", .text "a")]) ∧
      let recorder := fresh.performed [.record (Value.record [("cycle", .text "a")])]
      ∀ depths, (recorder.save depths ⟨[]⟩ (.text "h.json") (.text "json")).result = .ok false := by
  refine ⟨_, make_whole 10 .null (show limitOf (.int 4) = .ok (some 4) from rfl), ?_, ?_⟩
  · exact ⟨⟨_, rfl⟩, by decide, show List.Nodup [Key.text "cycle"] by decide, ⟨_, rfl, by decide⟩,
      show Json.Unpaired "a".toList by decide, trivial⟩
  · intro recorder depths
    have opens : (Files.makeParent ⟨[]⟩ "h.json").result = .ok () := rfl
    have uncounted : recorder.totalCycles = .error .wrongKind := rfl
    rw [save_path recorder _ opens, write, toValue_uncounted uncounted]
    rfl

end Recorder

end ChipEight
