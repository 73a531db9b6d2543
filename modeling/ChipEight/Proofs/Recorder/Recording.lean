/-
This file says what becomes of a recorder that takes snapshots and is cleared, in any order. The cycles and
the names of registers that it has seen play no part in what it holds of later ones.
-/

import ChipEight.Proofs.Recorder.Loading
import Mathlib.Data.List.Induction

namespace ChipEight.Recorder

/-! ### Taking one snapshot -/

/-- The cycle that a snapshot holds. -/
def cycleIn (state : Value) : Except Fault (Option Value) := do
  if ← state.contains (.text "cycle") then
    let cycle ← state.item (.text "cycle")
    pure (some cycle)
  else pure none

/-- The names of the registers that a snapshot holds. -/
def namesIn (state : Value) : Except Fault (List Key) := do
  if ← state.contains (.text "registers") then
    let registers ← (← state.item (.text "registers")).entriesOf
    pure (Entries.names registers)
  else pure []

/-- The recorder after a cycle, or after none. -/
def seeing (recorder : Recorder) : Option Value → Recorder
  | none => recorder
  | some cycle => { recorder with
      firstCycle := match recorder.firstCycle with
        | .null => cycle
        | known => known
      lastCycle := cycle }

theorem withCycle_eq (recorder : Recorder) (state : Value) :
    recorder.withCycle state = (cycleIn state).map recorder.seeing := by
  unfold withCycle cycleIn
  cases state.contains (.text "cycle") with
  | error fault => rfl
  | ok held =>
      cases held with
      | false => rfl
      | true => cases state.item (.text "cycle") <;> rfl

theorem withRegisters_eq (recorder : Recorder) (state : Value) :
    recorder.withRegisters state = (namesIn state).map fun names =>
      { recorder with registers := addNames recorder.registers names } := by
  unfold withRegisters namesIn
  cases state.contains (.text "registers") with
  | error fault => rfl
  | ok held =>
      cases held with
      | false => rfl
      | true =>
          cases state.item (.text "registers") with
          | error fault => rfl
          | ok registers =>
              simp only [bind, Except.bind, if_true]
              cases registers.entriesOf <;> rfl

/-- A mapping can be asked for its cycle. -/
theorem cycleIn_dict (entries : Entries) :
    cycleIn (.dict entries) = .ok (Entries.find? entries (.text "cycle")) := by
  unfold cycleIn
  rw [Value.contains_dict, Entries.has]
  cases found : Entries.find? entries (.text "cycle") with
  | none => rfl
  | some cycle => simp [Value.item_dict found, bind, Except.bind, pure, Except.pure]

/-- A mapping gives the names of its registers if they are a mapping as well, or if it has none. -/
theorem namesIn_dict (entries : Entries) :
    (∃ names, IsRecord (.dict entries) ∧ namesIn (.dict entries) = .ok names) ∨
      namesIn (.dict entries) = .error .noMember := by
  unfold namesIn
  rw [Value.contains_dict, Entries.has]
  cases found : Entries.find? entries (.text "registers") with
  | none => exact .inl ⟨[], ⟨entries, [], rfl, by rw [found]; rfl⟩, rfl⟩
  | some value =>
      simp only [Option.isSome_some, Value.item_dict found, bind, Except.bind, if_true]
      rcases value.entries_cases with ⟨registers, rfl⟩ | shapeless
      · exact .inl ⟨Entries.names registers, ⟨entries, registers, rfl, by rw [found]; rfl⟩, rfl⟩
      · exact .inr (by rw [Value.entriesOf_shapeless shapeless])

theorem chosen_sublist {filter : Value} {entries kept : Entries}
    (picked : chosen filter entries = .ok kept) : kept.Sublist entries := by
  induction entries generalizing kept with
  | nil =>
      cases picked
      exact List.Sublist.refl _
  | cons entry rest ih =>
      obtain ⟨name, value⟩ := entry
      rw [chosen] at picked
      cases wanted : filter.contains name.toValue with
      | error fault =>
          rw [wanted] at picked
          cases picked
      | ok flag =>
          cases others : chosen filter rest with
          | error fault =>
              rw [wanted, others] at picked
              cases picked
          | ok later =>
              rw [wanted, others] at picked
              cases flag <;> cases picked
              · exact (ih others).cons _
              · exact (ih others).cons_cons _

/-- A filter leaves a mapping as it is, or leaves some of its registers. -/
theorem filtered_cases {filter kept : Value} {entries : Entries}
    (picked : filtered filter (.dict entries) = .ok kept) :
    kept = .dict entries ∨ ∃ registers fewer,
      Entries.find? entries (.text "registers") = some (.dict registers) ∧ fewer.Sublist registers ∧
        kept = .dict (Entries.put entries (.text "registers") (.dict fewer)) := by
  unfold filtered at picked
  split at picked
  · cases picked
    exact .inl rfl
  · rw [Value.contains_dict, Entries.has] at picked
    cases found : Entries.find? entries (.text "registers") with
    | none =>
        rw [found] at picked
        cases picked
        exact .inl rfl
    | some value =>
        simp only [found, Option.isSome_some, bind, Except.bind, if_true, Value.copied,
          Value.item_dict found] at picked
        rcases value.entries_cases with ⟨registers, rfl⟩ | shapeless
        · simp only [Value.entriesOf] at picked
          cases fewer : chosen filter registers with
          | error fault =>
              rw [fewer] at picked
              cases picked
          | ok names =>
              rw [fewer] at picked
              cases picked
              exact .inr ⟨registers, names, rfl, chosen_sublist fewer, rfl⟩
        · rw [Value.entriesOf_shapeless shapeless] at picked
          cases picked

/-- What a filter leaves of a mapping has the same values under all names but one. -/
theorem filtered_field {filter kept : Value} {entries : Entries} {name : String}
    (picked : filtered filter (.dict entries) = .ok kept) (other : name ≠ "registers") :
    ∃ fields, kept = .dict fields ∧ (Value.dict fields).field? name = (Value.dict entries).field? name := by
  rcases filtered_cases picked with rfl | ⟨registers, fewer, -, -, rfl⟩
  · exact ⟨entries, rfl, rfl⟩
  · exact ⟨_, rfl, Entries.findPutOther entries _ (by simpa [Key.face] using other)⟩

variable {recorder after one other : Recorder} {state : Value}

theorem withSample_cases {items : List Value} (samples : recorder.compressed = .list items)
    (state : Value) :
    (∃ fault, recorder.withSample state = .error fault) ∨ recorder.withSample state = .ok recorder ∨
      recorder.withSample state = .ok { recorder with compressed := .list (items ++ [state]) } := by
  unfold withSample
  cases recorder.total.isMultiple recorder.ratio with
  | error fault => exact .inl ⟨fault, rfl⟩
  | ok due =>
      cases due with
      | false => exact .inr (.inl rfl)
      | true =>
          rw [samples]
          exact .inr (.inr rfl)

/-- What a snapshot makes of a recorder that has taken so many: nothing, if the filter cannot be applied;
one more in the count, if it has no names to give; or a recorder that holds it, as the filter leaves
it. -/
inductive Recorded (recorder : Recorder) (state : Value) (count : Int) : Recorder → Prop
  | refused : Recorded recorder state count recorder
  | counted (first last : Value) : Recorded recorder state count
      { recorder with total := .int (count + 1), firstCycle := first, lastCycle := last }
  | held (kept first last : Value) (names : List Key) (samples : Value)
      (picked : filtered recorder.filter state = .ok kept) (shaped : IsRecord kept)
      (named : namesIn kept = .ok names)
      (sampled : samples = recorder.compressed ∨
        ∃ items, recorder.compressed = .list items ∧ samples = .list (items ++ [kept])) :
      Recorded recorder state count { recorder.withSnapshot kept with
        total := .int (count + 1), firstCycle := first, lastCycle := last,
        registers := addNames recorder.registers names, compressed := samples }

theorem record_cases {items : List Value} {count : Int} (total : recorder.total = .int count)
    (samples : recorder.compressed = .list items)
    (mapping : ∀ kept, filtered recorder.filter state = .ok kept → ∃ entries, kept = .dict entries) :
    recorder.Recorded state count (recorder.record state).1 := by
  unfold record
  cases picked : filtered recorder.filter state with
  | error fault => exact .refused
  | ok kept =>
  obtain ⟨entries, rfl⟩ := mapping kept picked
  have counted : recorder.total.successor = .ok (.int (count + 1)) := by
    rw [total]
    rfl
  obtain ⟨first, last, seen⟩ : ∃ first last,
      seeing { recorder with total := .int (count + 1) } (Entries.find? entries (.text "cycle")) =
        { recorder with total := .int (count + 1), firstCycle := first, lastCycle := last } := by
    cases Entries.find? entries (.text "cycle") with
    | none => exact ⟨recorder.firstCycle, recorder.lastCycle, rfl⟩
    | some cycle => exact ⟨_, cycle, rfl⟩
  have cycled : withCycle { recorder with total := .int (count + 1) } (.dict entries) =
      .ok { recorder with total := .int (count + 1), firstCycle := first, lastCycle := last } := by
    rw [withCycle_eq, cycleIn_dict, Except.map, seen]
  unfold noted
  simp only [through, counted, Except.map, cycled]
  rw [withRegisters_eq]
  rcases namesIn_dict entries with ⟨names, shaped, named⟩ | nameless
  · rw [named]
    let ready : Recorder := withSnapshot { recorder with
      total := .int (count + 1), firstCycle := first, lastCycle := last,
      registers := addNames recorder.registers names } (.dict entries)
    have held (more : Value) (sampled : more = recorder.compressed ∨
        ∃ items, recorder.compressed = .list items ∧ more = .list (items ++ [.dict entries])) :
        recorder.Recorded state count { ready with compressed := more } :=
      .held (.dict entries) first last names more picked shaped named sampled
    change recorder.Recorded state count (ready.through [fun current => current.withSample _]).1
    rw [through]
    rcases withSample_cases (show ready.compressed = .list items from samples) (.dict entries) with
      ⟨fault, failed⟩ | same | grown
    · rw [failed]
      exact held recorder.compressed (.inl rfl)
    · rw [same]
      exact held recorder.compressed (.inl rfl)
    · rw [grown]
      exact held _ (.inr ⟨items, samples, rfl⟩)
  · rw [nameless]
    exact .counted first last

theorem withSample_done (done : recorder.withSample state = .ok after) :
    ∃ samples, after = { recorder with compressed := samples } := by
  unfold withSample at done
  cases due : recorder.total.isMultiple recorder.ratio with
  | error fault =>
      rw [due] at done
      cases done
  | ok multiple =>
      simp only [due, bind, Except.bind] at done
      split at done
      · split at done
        · cases done
          exact ⟨_, rfl⟩
        · cases done
      · cases done
        exact ⟨recorder.compressed, rfl⟩

/-- A snapshot that is taken without a fault is held as the filter leaves it, after its cycle and the names
of its registers are noted. -/
theorem record_done (done : recorder.record state = (after, .ok ())) :
    ∃ kept total cycle names samples, filtered recorder.filter state = .ok kept ∧
      cycleIn kept = .ok cycle ∧ namesIn kept = .ok names ∧
      after = { (recorder.seeing cycle).withSnapshot kept with
        total := total
        registers := addNames recorder.registers names
        compressed := samples } := by
  unfold record at done
  cases picked : filtered recorder.filter state with
  | error fault =>
      rw [picked] at done
      cases done
  | ok kept =>
  simp only [picked, noted, through] at done
  cases counted : recorder.total.successor with
  | error fault =>
      rw [counted] at done
      cases done
  | ok total =>
  simp only [counted, Except.map, withCycle_eq, withRegisters_eq] at done
  cases cycled : cycleIn kept with
  | error fault =>
      rw [cycled] at done
      cases done
  | ok cycle =>
  cases named : namesIn kept with
  | error fault =>
      rw [cycled, named] at done
      cases done
  | ok names =>
  simp only [cycled, named] at done
  split at done
  case h_2 => cases done
  case h_1 next sampled =>
    cases done
    obtain ⟨samples, rfl⟩ := withSample_done sampled
    refine ⟨kept, total, cycle, names, samples, rfl, cycled, named, ?_⟩
    cases cycle <;> rfl

/-! ### Recorders that hold the same -/

/-- Two recorders have the same settings and hold the same; they may have seen other cycles and names. -/
def Alike (one other : Recorder) : Prop :=
  ∃ first last names,
    other = { one with firstCycle := first, lastCycle := last, registers := names }

theorem alike_of_parts (settings : other.settings = one.settings) (history : other.history = one.history)
    (compressed : other.compressed = one.compressed) (total : other.total = one.total) :
    Alike one other := by
  refine ⟨other.firstCycle, other.lastCycle, other.registers, ?_⟩
  simp only [Recorder.settings, Prod.mk.injEq] at settings
  obtain ⟨limit, limitGiven, ratio, filter⟩ := settings
  cases one
  cases other
  simp_all

/-- What a step makes of recorders that are alike is alike, or it fails alike. -/
def Blind (step : Recorder → Except Fault Recorder) : Prop :=
  ∀ one other, Alike one other →
    (∃ fault, step one = .error fault ∧ step other = .error fault) ∨
      ∃ next following, step one = .ok next ∧ step other = .ok following ∧ Alike next following

theorem through_alike {steps : List (Recorder → Except Fault Recorder)}
    (blind : ∀ step ∈ steps, Blind step) (alike : Alike one other) :
    Alike (one.through steps).1 (other.through steps).1 ∧
      (other.through steps).2 = (one.through steps).2 := by
  induction steps generalizing one other with
  | nil => exact ⟨alike, rfl⟩
  | cons step rest ih =>
      obtain ⟨here, others⟩ := List.forall_mem_cons.mp blind
      unfold through
      rcases here one other alike with ⟨fault, first, second⟩ | ⟨next, following, first, second, still⟩
      · rw [first, second]
        exact ⟨alike, rfl⟩
      · rw [first, second]
        exact ih others still

theorem total_blind :
    Blind fun current => current.total.successor.map fun total => { current with total := total } := by
  rintro one _ ⟨first, last, names, rfl⟩
  dsimp only
  cases one.total.successor with
  | error fault => exact .inl ⟨fault, rfl, rfl⟩
  | ok total => exact .inr ⟨_, _, rfl, rfl, first, last, names, rfl⟩

theorem cycle_blind (state : Value) : Blind fun current => current.withCycle state := by
  rintro one _ ⟨first, last, names, rfl⟩
  simp only [withCycle_eq]
  cases cycleIn state with
  | error fault => exact .inl ⟨fault, rfl, rfl⟩
  | ok cycle =>
      refine .inr ⟨_, _, rfl, rfl, ?_⟩
      cases cycle with
      | none => exact ⟨first, last, names, rfl⟩
      | some cycle => exact ⟨_, cycle, names, rfl⟩

theorem registers_blind (state : Value) : Blind fun current => current.withRegisters state := by
  rintro one _ ⟨first, last, names, rfl⟩
  simp only [withRegisters_eq]
  cases namesIn state with
  | error fault => exact .inl ⟨fault, rfl, rfl⟩
  | ok more => exact .inr ⟨_, _, rfl, rfl, first, last, _, rfl⟩

theorem sample_blind (state : Value) : Blind fun current => current.withSample state := by
  rintro one _ ⟨first, last, names, rfl⟩
  unfold withSample
  dsimp only
  cases one.total.isMultiple one.ratio with
  | error fault => exact .inl ⟨fault, rfl, rfl⟩
  | ok due =>
      cases due with
      | false => exact .inr ⟨_, _, rfl, rfl, first, last, names, rfl⟩
      | true =>
          cases one.compressed
          case list items => exact .inr ⟨_, _, rfl, rfl, first, last, names, rfl⟩
          all_goals exact .inl ⟨.noMember, rfl, rfl⟩

/-- Recorders that are alike take a snapshot alike. -/
theorem record_alike (state : Value) (alike : Alike one other) :
    Alike (one.record state).1 (other.record state).1 ∧
      (other.record state).2 = (one.record state).2 := by
  have filter : other.filter = one.filter := by
    obtain ⟨_, _, _, rfl⟩ := alike
    rfl
  unfold record
  rw [filter]
  cases filtered one.filter state with
  | error fault => exact ⟨alike, rfl⟩
  | ok kept =>
      have blind : ∀ step ∈ [
          fun current : Recorder =>
            current.total.successor.map fun total => { current with total := total },
          fun current => current.withCycle kept,
          fun current => current.withRegisters kept], Blind step := by
        simp only [List.forall_mem_cons]
        exact ⟨total_blind, cycle_blind kept, registers_blind kept, nofun⟩
      obtain ⟨still, same⟩ := through_alike blind alike
      dsimp only
      unfold noted
      revert still same
      generalize one.through _ = first
      generalize other.through _ = second
      obtain ⟨ready, result⟩ := first
      obtain ⟨prepared, outcome⟩ := second
      rintro still rfl
      cases outcome with
      | error fault => exact ⟨still, rfl⟩
      | ok _ =>
          have held : Alike (ready.withSnapshot kept) (prepared.withSnapshot kept) := by
            obtain ⟨first, last, names, same⟩ := still
            change prepared = _ at same
            exact ⟨first, last, names, same ▸ rfl⟩
          exact through_alike (by simpa using sample_blind kept) held

/-! ### Snapshots and clearings in any order -/

/-- What somebody may do with a recorder. -/
inductive Deed where
  | record (state : Value)
  | clear

/-- The recorder after a deed. One that refuses a snapshot goes on as that leaves it. -/
def Deed.on (recorder : Recorder) : Deed → Recorder
  | record state => (recorder.record state).1
  | clear => recorder.clear

/-- The recorder after deeds one after another. -/
def performed (recorder : Recorder) (deeds : List Deed) : Recorder :=
  deeds.foldl Deed.on recorder

theorem performed_snoc (recorder : Recorder) (deeds : List Deed) (last : Deed) :
    recorder.performed (deeds ++ [last]) = last.on (recorder.performed deeds) := by
  simp [performed]

/-- Recorders that are alike stay so. -/
theorem performed_alike (deeds : List Deed) (alike : Alike one other) :
    Alike (one.performed deeds) (other.performed deeds) := by
  induction deeds generalizing one other with
  | nil => exact alike
  | cons deed rest ih =>
      refine ih ?_
      cases deed with
      | record state => exact (record_alike state alike).1
      | clear =>
          obtain ⟨first, last, names, rfl⟩ := alike
          exact ⟨.null, .null, [], rfl⟩

theorem Alike.parts (alike : Alike one other) :
    other.history = one.history ∧ other.compressed = one.compressed ∧ other.total = one.total := by
  obtain ⟨first, last, names, rfl⟩ := alike
  exact ⟨rfl, rfl, rfl⟩

/-- Snapshots of a kind, which a filter keeps in it. They are mappings, and their registers have texts for
names, which may be of a kind as well. -/
structure Kind where
  has : Value → Prop
  names : String → Prop
  mapping : ∀ state, has state → ∃ entries, state = .dict entries
  picked : ∀ filter state kept, has state → filtered filter state = .ok kept → has kept
  named : ∀ state keys, has state → namesIn state = .ok keys →
    ∀ key ∈ keys, ∃ name, key = .text name ∧ names name

/-- A recorder with the settings of `fresh` that has been given at most so many snapshots of a kind. -/
structure Reached (kind : Kind) (fresh : Recorder) (count : Nat) (recorder : Recorder) : Prop where
  settings : recorder.settings = fresh.settings
  total : ∃ number : Nat, recorder.total = .int number ∧ number ≤ count
  samples : ∃ items, recorder.compressed = .list items ∧ items.length ≤ count ∧
    ∀ state ∈ items, kind.has state
  within : bounded recorder.limit recorder.history = recorder.history
  size : recorder.history.size ≤ count
  records : ∀ state ∈ recorder.history, IsRecord state ∧ kind.has state
  names : ∀ key ∈ recorder.registers, ∃ name, key = .text name ∧ kind.names name

variable {kind : Kind} {fresh : Recorder} {count : Nat}

/-- The latest items are within the limit. -/
theorem bounded_bounded (limit : Option Nat) (items : Array Value) :
    bounded limit (bounded limit items) = bounded limit items := by
  cases limit with
  | none => rfl
  | some most =>
      have short : (bounded (some most) items).size ≤ most := by
        unfold bounded
        dsimp only
        split
        · simp
          omega
        · omega
      conv_lhs => unfold bounded
      exact if_neg (Nat.not_lt.mpr short)

theorem size_bounded (limit : Option Nat) (items : Array Value) :
    (bounded limit items).size ≤ items.size := by
  unfold bounded
  cases limit with
  | none => exact Nat.le_refl _
  | some most =>
      dsimp only
      split
      · simp
      · exact Nat.le_refl _

theorem mem_bounded {limit : Option Nat} {items : Array Value} {item : Value}
    (member : item ∈ bounded limit items) : item ∈ items := by
  unfold bounded at member
  cases limit with
  | none => exact member
  | some most =>
      dsimp only at member
      split at member
      · obtain ⟨place, _, found⟩ := Array.mem_extract_iff_getElem.mp member
        exact found ▸ Array.getElem_mem _
      · exact member

theorem mem_addNames {known names : List Key} {key : Key} (member : key ∈ addNames known names) :
    key ∈ known ∨ key ∈ names := by
  induction names generalizing known with
  | nil => exact .inl member
  | cons name rest ih =>
      unfold addNames at ih member
      rw [List.foldl_cons] at member
      rcases ih member with before | later
      · split at before
        · exact .inl before
        · rcases List.mem_append.mp before with here | last
          · exact .inl here
          · exact .inr (List.mem_cons.mpr (.inl (List.mem_singleton.mp last)))
      · exact .inr (List.mem_cons_of_mem _ later)

theorem bounded_empty (limit : Option Nat) : bounded limit #[] = #[] := by
  cases limit <;> rfl

theorem Reached.clear (reached : Reached kind fresh count recorder) :
    Reached kind fresh (count + 1) recorder.clear where
  settings := reached.settings
  total := ⟨0, rfl, Nat.zero_le _⟩
  samples := ⟨[], rfl, Nat.zero_le _, nofun⟩
  within := bounded_empty recorder.limit
  size := Nat.zero_le _
  records := nofun
  names := nofun

/-- A snapshot of the kind is refused, counted or held, and the recorder stays of that kind. -/
theorem Reached.record (reached : Reached kind fresh count recorder) (proper : kind.has state) :
    Reached kind fresh (count + 1) (recorder.record state).1 := by
  obtain ⟨settings, ⟨number, total, most⟩, ⟨items, samples, few, sampled⟩, within, size, records,
    names⟩ := reached
  have course : recorder.Recorded state number (recorder.record state).1 :=
    record_cases total samples fun kept picked =>
      kind.mapping kept (kind.picked recorder.filter state kept proper picked)
  generalize (recorder.record state).1 = after at course ⊢
  cases course with
  | refused =>
      exact ⟨settings, ⟨number, total, by omega⟩, ⟨items, samples, by omega, sampled⟩, within, by omega,
        records, names⟩
  | counted first last =>
      exact ⟨settings, ⟨number + 1, rfl, by omega⟩, ⟨items, samples, by omega, sampled⟩, within,
        Nat.le_succ_of_le size, records, names⟩
  | held kept first last more samples' picked shaped named grown =>
      have held := kind.picked recorder.filter state kept proper picked
      refine ⟨settings, ⟨number + 1, rfl, by omega⟩, ?_, bounded_bounded _ _, ?_, ?_, ?_⟩
      · rcases grown with rfl | ⟨others, same, rfl⟩
        · exact ⟨items, samples, by omega, sampled⟩
        · cases samples.symm.trans same
          refine ⟨items ++ [kept], rfl, by simp; omega, ?_⟩
          rw [List.forall_mem_append]
          exact ⟨sampled, List.forall_mem_singleton.mpr held⟩
      · have most := size_bounded recorder.limit (recorder.history.push kept)
        rw [Array.size_push] at most
        change (bounded recorder.limit (recorder.history.push kept)).size ≤ count + 1
        omega
      · intro item member
        rcases Array.mem_push.mp (mem_bounded member) with before | rfl
        · exact records item before
        · exact ⟨shaped, held⟩
      · intro key member
        rcases mem_addNames member with before | new
        · exact names key before
        · exact kind.named kept more held named key new

/-- One more deed leads to one more recorder of its kind. -/
theorem Reached.on {deed : Deed} (reached : Reached kind fresh count recorder)
    (given : ∀ state, deed = .record state → kind.has state) :
    Reached kind fresh (count + 1) (deed.on recorder) := by
  cases deed with
  | clear => exact reached.clear
  | record state => exact reached.record (given state rfl)

/-- A new recorder has the settings that it was given, and has seen nothing. -/
theorem make_cases {limit ratio filter : Value} (made : make limit ratio filter = .ok fresh) :
    ∃ most step, limitOf limit = .ok most ∧
      fresh = ⟨most, limit, step, filter, #[], .list [], .int 0, .null, .null, []⟩ := by
  unfold make at made
  cases greater : (Value.int 1).greater ratio with
  | error fault =>
      rw [greater] at made
      cases made
  | ok step =>
      cases bound : limitOf limit with
      | error fault =>
          rw [greater, bound] at made
          cases made
      | ok most =>
          rw [greater, bound] at made
          cases made
          exact ⟨most, step, rfl, rfl⟩

/-- All deeds with snapshots of a kind lead to recorders of that kind. -/
theorem reached_performed {limit ratio filter : Value} (made : make limit ratio filter = .ok fresh)
    {deeds : List Deed} (given : ∀ state, .record state ∈ deeds → kind.has state) :
    Reached kind fresh deeds.length (fresh.performed deeds) := by
  induction deeds using List.reverseRecOn with
  | nil =>
      obtain ⟨most, step, -, rfl⟩ := make_cases made
      exact ⟨rfl, ⟨0, rfl, Nat.le_refl 0⟩, ⟨[], rfl, Nat.le_refl 0, nofun⟩, bounded_empty most,
        Nat.le_refl 0, nofun, nofun⟩
  | append_singleton deeds last ih =>
      rw [performed_snoc, List.length_append]
      have before := ih fun state member => given state (List.mem_append_left _ member)
      exact before.on fun state same => given state (by simp [same])

end ChipEight.Recorder
