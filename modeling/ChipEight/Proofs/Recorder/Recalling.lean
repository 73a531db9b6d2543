/-
This file says what a recorder can tell from the snapshots that it holds: their cycles and the names of
their registers. It is all that a recorder has seen as long as no snapshot has been refused or given up.
-/

import ChipEight.Proofs.Recorder.Recording

namespace ChipEight.Recorder

/-- The cycles that snapshots hold. -/
def cyclesOf (states : List Value) : List Value :=
  states.filterMap fun state => state.field? "cycle"

/-- The names of the registers that a snapshot holds. -/
def registersOf (state : Value) : List Key :=
  Entries.names (((state.field? "registers").bind Value.entries?).getD [])

/-- The names of the registers of snapshots, each once and in the order of their appearance. -/
def namesOf (states : List Value) : List Key :=
  states.foldl (fun known state => addNames known (registersOf state)) []

/-- The recorder as if it had seen no snapshots but those that it holds. -/
def recalled (recorder : Recorder) : Recorder :=
  let cycles := cyclesOf recorder.history.toList
  { recorder with
    firstCycle := cycles.head?.getD .null
    lastCycle := cycles.getLast?.getD .null
    registers := namesOf recorder.history.toList }

theorem cyclesOf_snoc (states : List Value) (state : Value) :
    cyclesOf (states ++ [state]) = cyclesOf states ++ (state.field? "cycle").toList := by
  unfold cyclesOf
  rw [List.filterMap_append, List.filterMap_cons]
  cases state.field? "cycle" <;> rfl

theorem namesOf_snoc (states : List Value) (state : Value) :
    namesOf (states ++ [state]) = addNames (namesOf states) (registersOf state) := by
  simp [namesOf]

variable {recorder : Recorder} {state : Value} {entries : Entries}

/-! ### Taking snapshots over -/

/-- The values under a name in snapshots that are mappings. -/
theorem column_fields (name : String)
    (shaped : ∀ state ∈ recorder.history.toList, ∃ entries, state = .dict entries) :
    recorder.column name =
      .ok (recorder.history.toList.filterMap fun state => state.field? name) := by
  unfold column
  rw [holding_fields name shaped]
  simp only [bind, Except.bind, pure, Except.pure, List.map_filterMap, Option.map_map]
  congr 2
  funext state
  cases state.field? name <;> rfl

/-- The registers of a snapshot stand under their name, or there are none. -/
theorem registers_field {registers : Entries}
    (named : (Entries.find? entries (.text "registers")).getD (.dict []) = .dict registers) :
    ((Value.dict entries).field? "registers" = none ∧ registers = []) ∨
      (Value.dict entries).field? "registers" = some (.dict registers) := by
  have field : (Value.dict entries).field? "registers" = Entries.find? entries (.text "registers") := rfl
  rw [field]
  cases found : Entries.find? entries (.text "registers") with
  | none =>
      rw [found] at named
      cases named
      exact .inl ⟨rfl, rfl⟩
  | some value =>
      rw [found] at named
      exact .inr (congrArg some named)

theorem registersOf_dict {registers : Entries}
    (named : (Entries.find? entries (.text "registers")).getD (.dict []) = .dict registers) :
    registersOf (.dict entries) = Entries.names registers := by
  rcases registers_field named with ⟨none, rfl⟩ | found
  · rw [registersOf, none]
    rfl
  · rw [registersOf, found]
    rfl

theorem namesAfter_record (known : List Key) (shaped : IsRecord state) :
    namesAfter known state = .ok (addNames known (registersOf state)) := by
  obtain ⟨entries, registers, rfl, named⟩ := shaped
  unfold namesAfter
  rw [Value.getOr_dict, named, registersOf_dict named]
  rfl

theorem names_records (known : List Key) {states : List Value}
    (shaped : ∀ state ∈ states, IsRecord state) :
    states.foldlM namesAfter known =
      .ok (states.foldl (fun known state => addNames known (registersOf state)) known) := by
  induction states generalizing known with
  | nil => rfl
  | cons state rest ih =>
      obtain ⟨here, others⟩ := List.forall_mem_cons.mp shaped
      rw [List.foldlM_cons, namesAfter_record known here]
      exact ih _ others

/-- Snapshots that are taken over give the recorder their cycles and the names of their registers. -/
theorem through_recalled (shaped : ∀ state ∈ recorder.history.toList, IsRecord state) :
    recorder.through [withCycles, withNames] = (recorder.recalled, .ok ()) := by
  let cycled : Recorder := { recorder with
    firstCycle := recorder.recalled.firstCycle
    lastCycle := recorder.recalled.lastCycle }
  have cycles : recorder.withCycles = .ok cycled := by
    unfold withCycles
    rw [column_fields "cycle" fun state member =>
      (shaped state member).imp fun entries ⟨_, same, _⟩ => same]
    rfl
  have names : cycled.withNames = .ok recorder.recalled := by
    have unfolded : cycled.withNames = (do
        let names ← recorder.history.toList.foldlM namesAfter []
        pure { cycled with registers := names }) := rfl
    rw [unfolded, names_records [] shaped]
    rfl
  simp only [through, cycles, names]

/-! ### Recorders that hold all that they have seen -/

/-- All that the recorder has seen is in the snapshots that it holds, and none of these has an empty
cycle. -/
structure Remembers (recorder : Recorder) : Prop where
  whole : recorder.recalled = recorder
  cycles : Value.null ∉ cyclesOf recorder.history.toList

/-- The recorder takes a snapshot without an empty cycle, and gives none up for it. -/
def Keeps (recorder : Recorder) : Deed → Prop
  | .record state => (recorder.record state).2 = .ok () ∧
      (∀ most, recorder.limit = some most → recorder.history.size < most) ∧
      state.field? "cycle" ≠ some .null
  | .clear => True

def KeepsAll (recorder : Recorder) : List Deed → Prop
  | [] => True
  | deed :: rest => recorder.Keeps deed ∧ (deed.on recorder).KeepsAll rest

theorem clear_remembers (recorder : Recorder) : recorder.clear.Remembers :=
  ⟨rfl, nofun⟩

/-- A limit that is not reached gives nothing up for one item more. -/
theorem bounded_push {limit : Option Nat} {items : Array Value} (item : Value)
    (room : ∀ most, limit = some most → items.size < most) :
    bounded limit (items.push item) = items.push item := by
  unfold bounded
  cases limit with
  | none => rfl
  | some most =>
      refine if_neg (Nat.not_lt.mpr ?_)
      rw [Array.size_push]
      exact room most rfl

theorem namesIn_registersOf {names : List Key} (named : namesIn (.dict entries) = .ok names) :
    names = registersOf (.dict entries) := by
  have field : (Value.dict entries).field? "registers" =
      Entries.find? entries (.text "registers") := rfl
  unfold namesIn at named
  unfold registersOf
  rw [Value.contains_dict, Entries.has] at named
  rw [field]
  cases found : Entries.find? entries (.text "registers") with
  | none =>
      rw [found] at named
      cases named
      rfl
  | some value =>
      simp only [found, Option.isSome_some, Value.item_dict found, bind, Except.bind, if_true] at named
      rcases value.entries_cases with ⟨registers, rfl⟩ | shapeless
      · cases named
        rfl
      · rw [Value.entriesOf_shapeless shapeless] at named
        cases named

theorem seeing_eq (recorder : Recorder) (cycle : Option Value) :
    recorder.seeing cycle = { recorder with
      firstCycle := (recorder.seeing cycle).firstCycle
      lastCycle := (recorder.seeing cycle).lastCycle } := by
  cases cycle <;> rfl

/-- The first cycle that a recorder has seen stays the first, unless it is empty. -/
theorem seeing_first {cycles : List Value}
    (first : cycles.head?.getD .null = recorder.firstCycle) (held : Value.null ∉ cycles)
    (cycle : Option Value) :
    (cycles ++ cycle.toList).head?.getD .null = (recorder.seeing cycle).firstCycle := by
  cases cycle with
  | none => rw [Option.toList_none, List.append_nil, first, seeing]
  | some cycle =>
      unfold seeing
      dsimp only
      rw [← first]
      cases cycles with
      | nil => rfl
      | cons earliest rest =>
          cases earliest
          case null => exact absurd List.mem_cons_self held
          all_goals rfl

theorem seeing_last {cycles : List Value}
    (last : cycles.getLast?.getD .null = recorder.lastCycle) (cycle : Option Value) :
    (cycles ++ cycle.toList).getLast?.getD .null = (recorder.seeing cycle).lastCycle := by
  cases cycle with
  | none => rw [Option.toList_none, List.append_nil, last, seeing]
  | some cycle => simp [seeing]

/-- A recorder that gives up no snapshot goes on to hold all that it has seen. -/
theorem Remembers.on {deed : Deed} (remembers : recorder.Remembers)
    (mapping : ∀ state, deed = .record state → ∃ entries, state = .dict entries)
    (keeps : recorder.Keeps deed) : (deed.on recorder).Remembers := by
  cases deed with
  | clear => exact recorder.clear_remembers
  | record state =>
  obtain ⟨done, room, proper⟩ := keeps
  obtain ⟨entries, rfl⟩ := mapping state rfl
  have whole : recorder.record (.dict entries) = ((recorder.record (.dict entries)).1, .ok ()) :=
    Prod.ext rfl done
  obtain ⟨kept, total, cycle, names, samples, picked, cycled, named, after⟩ := record_done whole
  obtain ⟨fields, rfl, same⟩ := filtered_field picked (show "cycle" ≠ "registers" by decide)
  have grown : bounded recorder.limit (recorder.history.push (.dict fields)) =
      recorder.history.push (.dict fields) := bounded_push (.dict fields) room
  have seen : (Value.dict fields).field? "cycle" = cycle :=
    Except.ok.inj ((cycleIn_dict fields).symm.trans cycled)
  obtain ⟨whole, held⟩ := remembers
  have first : (cyclesOf recorder.history.toList).head?.getD .null = recorder.firstCycle :=
    congrArg firstCycle whole
  have last : (cyclesOf recorder.history.toList).getLast?.getD .null = recorder.lastCycle :=
    congrArg lastCycle whole
  have known : namesOf recorder.history.toList = recorder.registers :=
    congrArg Recorder.registers whole
  change (recorder.record (.dict entries)).1.Remembers
  rw [after, recorder.seeing_eq cycle]
  refine ⟨?_, ?_⟩
  · unfold recalled withSnapshot
    dsimp only
    rw [grown, Array.toList_push, cyclesOf_snoc, namesOf_snoc, seen, seeing_first first held,
      seeing_last last, known, ← namesIn_registersOf named]
  · unfold withSnapshot
    dsimp only
    rw [grown, Array.toList_push, cyclesOf_snoc, seen]
    intro member
    rcases List.mem_append.mp member with before | now
    · exact held before
    · rw [Option.mem_toList] at now
      exact proper (same.symm.trans (seen.trans now))

theorem Remembers.performed {deeds : List Deed} (remembers : recorder.Remembers)
    (mapping : ∀ state, .record state ∈ deeds → ∃ entries, state = .dict entries)
    (keeps : recorder.KeepsAll deeds) : (recorder.performed deeds).Remembers := by
  induction deeds generalizing recorder with
  | nil => exact remembers
  | cons deed rest ih =>
      obtain ⟨here, others⟩ := keeps
      refine ih (remembers.on (fun state same => mapping state ?_) here)
        (fun state member => mapping state (List.mem_cons_of_mem _ member)) others
      exact same ▸ List.mem_cons_self

end ChipEight.Recorder
