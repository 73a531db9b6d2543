/-
This file shows that a recorder never refuses a snapshot of a machine, whatever its limit, its ratio and
the names that it picks out.
-/

import ChipEight.Proofs.Value.Arithmetic
import ChipEight.Proofs.Value.Lookup
import ChipEight.Session

namespace ChipEight

namespace Recorder

/-- A recorder that counts in whole numbers and keeps its samples in a list. -/
structure Steady (recorder : Recorder) : Prop where
  total : ∃ count : Int, recorder.total = .int count
  ratio : ∃ step : Int, recorder.ratio = .int step
  filter : recorder.filter = .null ∨ ∃ items, recorder.filter = .list items
  samples : ∃ items, recorder.compressed = .list items

/-- With a whole number for the ratio, only the limit can be refused. -/
theorem make_whole {limit : Value} {most : Option Nat} (ratio : Int) (filter : Value)
    (bound : limitOf limit = .ok most) :
    make limit (.int ratio) filter = .ok ⟨most, limit, .int (max 1 ratio), filter, #[], .list [],
      .int 0, .null, .null, []⟩ := by
  unfold make
  rw [Value.greater_int, bound]
  rfl

/-- The recorders that somebody can make with a whole number for the ratio, and with a list of names to
pick out or without one. -/
theorem make_steady {recorder : Recorder} {limit : Value} {ratio : Int} {filter : Value}
    (picks : filter = .null ∨ ∃ items, filter = .list items)
    (made : make limit (.int ratio) filter = .ok recorder) : recorder.Steady := by
  cases bound : limitOf limit with
  | error fault =>
      unfold make at made
      rw [Value.greater_int, bound] at made
      cases made
  | ok most =>
      rw [make_whole ratio filter bound] at made
      cases made
      exact ⟨⟨0, rfl⟩, ⟨_, rfl⟩, picks, ⟨[], rfl⟩⟩

/-- A mapping that has a cycle and registers by name, as the snapshots of machines have. -/
def IsSnapshot (state : Value) : Prop :=
  ∃ entries registers cycle, state = .dict entries ∧
    Entries.find? entries (.text "cycle") = some cycle ∧
    Entries.find? entries (.text "registers") = some (.dict registers)

theorem snapshot_isSnapshot (machine : Machine) : IsSnapshot (Session.snapshot machine) :=
  ⟨_, _, _, rfl, rfl, rfl⟩

/-- A list of names picks out the entries that it holds. -/
theorem chosen_eq (items : List Value) (registers : Entries) :
    chosen (.list items) registers =
      .ok (registers.filter fun entry => items.any fun item => item.same entry.1.toValue) := by
  induction registers with
  | nil => rfl
  | cons entry rest ih =>
      obtain ⟨name, value⟩ := entry
      rw [chosen, Value.contains_list, ih, List.filter_cons]
      rfl

/-- What a list of names leaves of a snapshot is one. -/
theorem filtered_isSnapshot {filter state : Value}
    (picks : filter = .null ∨ ∃ items, filter = .list items) (shown : IsSnapshot state) :
    ∃ kept, filtered filter state = .ok kept ∧ IsSnapshot kept := by
  rcases picks with rfl | ⟨items, rfl⟩
  · exact ⟨state, rfl, shown⟩
  obtain ⟨entries, registers, cycle, rfl, cycled, registered⟩ := shown
  obtain ⟨kept, picked⟩ : ∃ kept, chosen (.list items) registers = .ok kept := ⟨_, chosen_eq items registers⟩
  have named : (Value.dict entries).contains (.text "registers") = .ok true := by
    unfold Value.contains Value.toKey? Entries.has
    dsimp only
    rw [registered]
    rfl
  have item : (Value.dict entries).item (.text "registers") = .ok (.dict registers) := by
    unfold Value.item Value.toKey?
    dsimp only
    rw [registered]
  refine ⟨.dict (Entries.put entries (.text "registers") (.dict kept)), ?_,
    _, kept, cycle, rfl, ?_, Entries.findPutSame entries (.text "registers") (.dict kept)⟩
  · simp only [filtered, named, Value.copied, item, Value.entriesOf, picked, bind, Except.bind, pure,
      Except.pure, if_true]
  · rw [Entries.findPutOther entries _ (by decide)]
    exact cycled

theorem withCycle_isSnapshot (recorder : Recorder) {state : Value} (shown : IsSnapshot state) :
    ∃ first last, recorder.withCycle state =
      .ok { recorder with firstCycle := first, lastCycle := last } := by
  obtain ⟨entries, registers, cycle, rfl, cycled, -⟩ := shown
  simp only [withCycle, Value.contains, Value.item, Value.toKey?, Entries.has, cycled, bind,
    Except.bind, pure, Except.pure, Option.isSome_some, if_true]
  exact ⟨_, _, rfl⟩

theorem withRegisters_isSnapshot (recorder : Recorder) {state : Value} (shown : IsSnapshot state) :
    ∃ names, recorder.withRegisters state = .ok { recorder with registers := names } := by
  obtain ⟨entries, registers, cycle, rfl, -, registered⟩ := shown
  simp only [withRegisters, Value.contains, Value.item, Value.toKey?, Value.entriesOf, Entries.has,
    registered, bind, Except.bind, pure, Except.pure, Option.isSome_some, if_true]
  exact ⟨_, rfl⟩

/-- The snapshot is kept if its number is a multiple of the ratio. -/
theorem withSample_whole {recorder : Recorder} {count step : Int} {items : List Value}
    (total : recorder.total = .int count) (ratio : recorder.ratio = .int step)
    (samples : recorder.compressed = .list items) (state : Value) :
    recorder.withSample state = .ok { recorder with
      compressed := .list (items ++ if count % step = 0 then [state] else []) } := by
  have due : recorder.total.isMultiple recorder.ratio = .ok (count % step == 0) := by
    rw [total, ratio]
    rfl
  unfold withSample
  rw [due, samples]
  by_cases multiple : count % step = 0
  · simp [multiple, bind, Except.bind, pure, Except.pure]
  · simp [multiple, ← samples, bind, Except.bind, pure, Except.pure]

/-- A steady recorder takes every snapshot, and stays steady. -/
theorem record_steady {recorder : Recorder} (steady : recorder.Steady) {state : Value}
    (shown : IsSnapshot state) :
    ∃ after, recorder.record state = (after, .ok ()) ∧ after.Steady := by
  obtain ⟨kept, picked, whole⟩ := filtered_isSnapshot steady.filter shown
  obtain ⟨count, total⟩ := steady.total
  have counted : recorder.total.successor = .ok (.int (count - -1)) := by
    rw [total]
    rfl
  obtain ⟨first, last, cycled⟩ :=
    withCycle_isSnapshot { recorder with total := .int (count - -1) } whole
  obtain ⟨names, registered⟩ := withRegisters_isSnapshot
    { recorder with total := .int (count - -1), firstCycle := first, lastCycle := last } whole
  have ready : recorder.noted kept = ({ recorder with
      total := .int (count - -1)
      firstCycle := first
      lastCycle := last
      registers := names }, .ok ()) := by
    simp only [noted, through, counted, Except.map, cycled, registered]
  let grown : Recorder := withSnapshot { recorder with
    total := .int (count - -1)
    firstCycle := first
    lastCycle := last
    registers := names } kept
  obtain ⟨step, ratio⟩ := steady.ratio
  obtain ⟨items, samples⟩ := steady.samples
  have sampled := withSample_whole (show grown.total = .int (count - -1) from rfl) ratio samples kept
  let more := items ++ if (count - -1) % step = 0 then [kept] else []
  refine ⟨{ grown with compressed := .list more }, ?_, ⟨_, rfl⟩, steady.ratio, steady.filter, more, rfl⟩
  unfold record
  rw [picked]
  dsimp only
  rw [ready]
  change grown.through [fun current => current.withSample kept] = _
  simp only [through, sampled]
  rfl

end Recorder

/-- A session whose recorder is steady, if it has one, records its state without a fault. -/
theorem Session.recorded_steady {session : Session}
    (steady : ∀ recorder, session.recorder = some recorder → recorder.Steady) :
    ∃ recorder, session.recorded = ({ session with recorder := recorder }, .ok ()) ∧
      ∀ written, recorder = some written → written.Steady := by
  obtain ⟨settings, machine, cyclesPerFrame, keymap, started, frames, recorder⟩ := session
  cases recorder with
  | none => exact ⟨none, rfl, nofun⟩
  | some recorder =>
      obtain ⟨after, taken, kept⟩ := Recorder.record_steady (steady recorder rfl)
        (Recorder.snapshot_isSnapshot machine)
      refine ⟨some after, ?_, ?_⟩
      · simp only [Session.recorded, taken]
      · rintro _ ⟨⟩
        exact kept

end ChipEight
