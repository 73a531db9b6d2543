/-
This file counts complaints. A cycle makes at most one, which is counted among all and in its own
category, and the tenth halts the machine in the cycle that makes it.
-/

import ChipEight.Proofs.Machine.Cycle
import ChipEight.Proofs.Machine.Rejection

namespace ChipEight

namespace Tally

/-- The complaints of all categories. -/
def total (tally : Tally) : Nat :=
  tally.bounds + tally.structural + tally.decode

/-- The tally after some complaints are counted, one after another. -/
def countAll (tally : Tally) (complaints : List (Complaint × Position)) : Tally :=
  complaints.foldl (fun counted entry => counted.count entry.1.category) tally

/-- No complaint is of a category without a count. -/
theorem total_count (tally : Tally) (complaint : Complaint) :
    (tally.count complaint.category).total = tally.total + 1 := by
  rcases Machine.count_category tally complaint with counted | counted | counted
  · rw [counted]
    simp only [total]
    omega
  · rw [counted]
    simp only [total]
    omega
  · rw [counted]
    rfl

theorem total_countAll (tally : Tally) (complaints : List (Complaint × Position)) :
    (tally.countAll complaints).total = tally.total + complaints.length := by
  induction complaints generalizing tally with
  | nil => rfl
  | cons entry rest ih =>
      have later := ih (tally.count entry.1.category)
      rw [total_count] at later
      change ((tally.count entry.1.category).countAll rest).total = _
      rw [later, List.length_cons]
      omega

end Tally

namespace Machine

/-- The machine after has counted these complaints, and no others, since the machine before. -/
structure Counted (before after : Machine) (complaints : List (Complaint × Position)) : Prop where
  errors : after.errors = before.errors + complaints.length
  tally : after.tally = before.tally.countAll complaints

theorem Counted.none {before after : Machine} (errors : after.errors = before.errors)
    (tally : after.tally = before.tally) : before.Counted after [] :=
  ⟨by rw [errors]; exact (Int.add_zero _).symm, tally⟩

theorem Counted.trans {first second third : Machine} {early late : List (Complaint × Position)}
    (start : first.Counted second early) (next : second.Counted third late) :
    first.Counted third (early ++ late) where
  errors := by
    rw [next.errors, start.errors, List.length_append, Int.natCast_add, Int.add_assoc]
  tally := by
    rw [next.tally, start.tally]
    exact List.foldl_append.symm

/-- What an action whose cycle is counted already does to the counts. -/
structure Counting {A : Type} (machine : Machine) (outcome : Outcome A) : Prop where
  counted : machine.Counted outcome.machine (Event.complaints outcome.events)
  once : (Event.complaints outcome.events).length ≤ 1
  cycles : outcome.machine.cycles = machine.cycles

variable {machine : Machine}

/-- A word makes a complaint if it is rejected, and else none. -/
theorem Verdict.counting {performed : Performed} (verdict : machine.Verdict performed) :
    machine.Counting performed := by
  cases verdict with
  | rejected complaint whole =>
      rw [whole]
      exact ⟨⟨rfl, rfl⟩, Nat.le_refl 1, rfl⟩
  | ignored event quiet whole =>
      have none : Event.complaints [event] = [] := by
        simp only [Event.complaints, List.filterMap_cons, quiet, List.filterMap_nil]
      rw [whole]
      refine ⟨?_, ?_, rfl⟩
      · change machine.Counted machine (Event.complaints [event])
        rw [none]
        exact .none rfl rfl
      · change (Event.complaints [event]).length ≤ 1
        rw [none]
        exact Nat.zero_le 1
  | accepted accepts =>
      refine ⟨?_, ?_, accepts.counts.cycles⟩
      · rw [accepts.calm]
        exact .none accepts.counts.errors accepts.counts.tally
      · rw [accepts.calm]
        exact Nat.zero_le 1

theorem checkErrors_complaints (machine : Machine) :
    Event.complaints machine.checkErrors.events = [] := by
  unfold checkErrors
  split <;> rfl

theorem correct_counting (machine : Machine) (complaint : Complaint) :
    machine.Counting (machine.correct complaint) := by
  have made : Event.complaints (machine.correct complaint).events =
      [(complaint, machine.position)] := by
    change (complaint, machine.position) :: Event.complaints (checkErrors _).events = _
    rw [checkErrors_complaints]
  refine ⟨?_, ?_, ?_⟩
  · rw [made, correct_machine]
    exact ⟨rfl, rfl⟩
  · rw [made]
    exact Nat.le_refl 1
  · rw [correct_machine]
    rfl

/-- Before its word is performed a machine has counted nothing new. -/
theorem loaded_counts (machine : Machine) (allowed : isProgramAddress machine.counter = true) :
    machine.loaded.errors = machine.errors ∧ machine.loaded.tally = machine.tally ∧
      machine.loaded.cycles = machine.cycles ∧ Event.complaints machine.fetch.events = [] := by
  obtain ⟨memory, notes, -, -, noted, loads⟩ := machine.loaded_eq allowed
  rw [loads, noted]
  exact ⟨rfl, rfl, rfl, Event.complaints_notes notes⟩

theorem advance_counting (machine : Machine) (allowed : isProgramAddress machine.counter = true) :
    machine.Counting machine.advance := by
  obtain ⟨errors, tally, cycles, calm⟩ := machine.loaded_counts allowed
  obtain ⟨counted, once, steady⟩ :=
    (perform_verdict machine.loaded machine.fetch.result).counting
  have sums : machine.Counted machine.performed.machine
      (Event.complaints machine.performed.events) :=
    ⟨by rw [← errors]; exact counted.errors, by rw [← tally]; exact counted.tally⟩
  rcases machine.advance_cases with ⟨fault, -, goes⟩ | ⟨status, place, word, -, goes⟩
  · have made : Event.complaints machine.advance.events =
        Event.complaints machine.performed.events := by
      rw [goes, Event.complaints_append, calm, List.nil_append]
    refine ⟨?_, ?_, ?_⟩
    · rw [made, goes]
      exact sums
    · rw [made]
      exact once
    · rw [goes]
      exact steady.trans cycles
  · have made : Event.complaints machine.advance.events =
        Event.complaints machine.performed.events := by
      rw [goes, Event.complaints_append, Event.complaints_append, calm, List.nil_append]
      change _ ++ Event.complaints (checkErrors _).events = _
      rw [checkErrors_complaints, List.append_nil]
    refine ⟨?_, ?_, ?_⟩
    · rw [made, goes]
      dsimp only
      rw [checkErrors_machine]
      exact ⟨sums.errors, sums.tally⟩
    · rw [made]
      exact once
    · rw [goes]
      dsimp only
      rw [checkErrors_machine]
      exact steady.trans cycles

/-- A cycle makes at most one complaint. Only the cycles of a machine that is not halted count. -/
theorem cycle_counting (machine : Machine) :
    machine.Counted machine.cycle.machine (Event.complaints machine.cycle.events) ∧
    (Event.complaints machine.cycle.events).length ≤ 1 ∧
    (machine.halted = true → machine.cycle.machine.cycles = machine.cycles) ∧
    (machine.halted = false → machine.errors < haltThreshold →
      machine.cycle.machine.cycles = machine.cycles + 1) := by
  rcases machine.cycle_cases with ⟨stopped, goes⟩ | ⟨awake, many, goes⟩ |
    ⟨awake, few, complaint, -, goes⟩ | ⟨awake, few, allowed, goes⟩
  · rw [goes]
    refine ⟨.none rfl rfl, Nat.zero_le 1, fun _ => rfl, ?_⟩
    intro awake
    exact absurd (awake.symm.trans stopped) Bool.false_ne_true
  · rw [goes]
    exact ⟨.none rfl rfl, Nat.zero_le 1, fun _ => rfl, fun _ few => absurd many (Int.not_le.mpr few)⟩
  · obtain ⟨counted, once, cycles⟩ := machine.begun.correct_counting complaint
    rw [goes]
    refine ⟨⟨counted.errors, counted.tally⟩, once, ?_, fun _ _ => cycles⟩
    intro stopped
    exact absurd (awake.symm.trans stopped) Bool.false_ne_true
  · obtain ⟨counted, once, cycles⟩ := machine.begun.advance_counting allowed
    rw [goes]
    refine ⟨⟨counted.errors, counted.tally⟩, once, ?_, fun _ _ => cycles⟩
    intro stopped
    exact absurd (awake.symm.trans stopped) Bool.false_ne_true

theorem checkErrors_stops (reached : haltThreshold ≤ machine.checkErrors.machine.errors) :
    machine.checkErrors.machine.halted = true := by
  rw [checkErrors_machine] at reached ⊢
  have many : decide (haltThreshold ≤ machine.errors) = true := decide_eq_true reached
  change (machine.halted || decide (haltThreshold ≤ machine.errors)) = true
  rw [many, Bool.or_true]

/-- A word that ends with a fault made no complaint, so the errors need no check then. -/
theorem advance_stops (machine : Machine) (few : machine.errors < haltThreshold)
    (allowed : isProgramAddress machine.counter = true)
    (reached : haltThreshold ≤ machine.advance.machine.errors) :
    machine.advance.machine.halted = true := by
  obtain ⟨errors, -, -, -⟩ := machine.loaded_counts allowed
  rcases machine.advance_cases with ⟨fault, ends, goes⟩ | ⟨status, place, word, -, goes⟩
  · rw [goes] at reached
    unfold performed at ends reached
    cases perform_verdict machine.loaded machine.fetch.result with
    | rejected complaint whole => rw [whole] at ends; cases ends
    | ignored event quiet whole => rw [whole] at ends; cases ends
    | accepted accepts =>
        dsimp only at reached
        rw [accepts.counts.errors, errors] at reached
        exact absurd reached (Int.not_le.mpr few)
  · rw [goes] at reached ⊢
    exact checkErrors_stops reached

/-- The complaint that is one too many halts the machine in its own cycle. -/
theorem cycle_stops (few : machine.errors < haltThreshold)
    (reached : haltThreshold ≤ machine.cycle.machine.errors) :
    machine.cycle.machine.halted = true := by
  rcases machine.cycle_cases with ⟨stopped, goes⟩ | ⟨-, many, -⟩ | ⟨-, -, complaint, -, goes⟩ |
    ⟨-, -, allowed, goes⟩
  · rw [goes]
    exact stopped
  · exact absurd many (Int.not_le.mpr few)
  · rw [goes] at reached ⊢
    exact checkErrors_stops reached
  · rw [goes] at reached ⊢
    exact machine.begun.advance_stops few allowed reached

end Machine

end ChipEight
