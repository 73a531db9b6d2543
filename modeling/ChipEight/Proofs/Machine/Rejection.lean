/-
This file sorts what words do on any machine: a word is rejected with one complaint, or ignored, or
performed without a complaint. A rejected word changes the counts of complaints only, and an ignored
one nothing.
-/

import ChipEight.Machine.Execute
import ChipEight.Proofs.Machine.WellFormed

namespace ChipEight

/-- The complaint that an event is, and where the machine was. -/
def Event.complaint? : Event → Option (Complaint × Position)
  | .complaint cause position => some (cause, position)
  | _ => none

/-- The complaints among some events, in order. -/
def Event.complaints (events : List Event) : List (Complaint × Position) :=
  events.filterMap complaint?

theorem Event.complaints_append (first second : List Event) :
    complaints (first ++ second) = complaints first ++ complaints second :=
  List.filterMap_append

/-- Events of a kind that is never a complaint hold no complaints. -/
theorem Event.complaints_map {A : Type} {make : A → Event}
    (quiet : ∀ item, (make item).complaint? = none) (items : List A) :
    complaints (items.map make) = [] := by
  induction items with
  | nil => rfl
  | cons item rest ih =>
      simp only [complaints, List.map_cons, List.filterMap_cons, quiet]
      exact ih

/-- The notes of the memory are no complaints. -/
theorem Event.complaints_notes (notes : List Memory.Note) :
    complaints (notes.map Event.memory) = [] :=
  complaints_map (fun _ => rfl) notes

namespace Machine

/-- Both machines have the same counts of complaints and cycles, the same last word and tone. -/
structure SameCounts (first second : Machine) : Prop where
  errors : first.errors = second.errors
  tally : first.tally = second.tally
  cycles : first.cycles = second.cycles
  last : first.last = second.last
  tone : first.tone = second.tone

theorem SameCounts.refl (machine : Machine) : machine.SameCounts machine :=
  ⟨rfl, rfl, rfl, rfl, rfl⟩

/-- A word that is neither rejected nor ignored, and of which the machine does not complain. -/
structure Accepted (machine : Machine) (performed : Performed) : Prop where
  notRejected : performed.result ≠ .ok .rejected
  notIgnored : performed.result ≠ .ok .ignored
  counts : performed.machine.SameCounts machine
  calm : Event.complaints performed.events = []

/-- The three ends of a word. -/
inductive Verdict (machine : Machine) (performed : Performed) : Prop where
  | rejected (complaint : Complaint) (whole : performed = machine.reject complaint)
  | ignored (event : Event) (quiet : event.complaint? = none)
      (whole : performed = machine.ignore event)
  | accepted (accepts : machine.Accepted performed)

variable {machine : Machine}

theorem applied_verdict {after : Machine} (counts : after.SameCounts machine) :
    machine.Verdict (applied after) :=
  .accepted ⟨by simp [applied], by simp [applied], counts, rfl⟩

theorem halt_verdict {after : Machine} (counts : after.SameCounts machine) (reason : HaltReason) :
    machine.Verdict (after.halt reason) :=
  .accepted ⟨by simp [halt], by simp [halt], ⟨counts.1, counts.2, counts.3, counts.4, counts.5⟩, rfl⟩

theorem fault_verdict {after : Machine} (counts : after.SameCounts machine) (fault : Fault)
    {events : List Event} (calm : Event.complaints events = []) :
    machine.Verdict ⟨after, .error fault, events⟩ :=
  .accepted ⟨by simp, by simp, counts, calm⟩

theorem skipIf_verdict (machine : Machine) (condition : Bool) :
    machine.Verdict (machine.skipIf condition) := by
  unfold skipIf
  split
  · exact applied_verdict ⟨rfl, rfl, rfl, rfl, rfl⟩
  · exact applied_verdict (.refl machine)

theorem jump_verdict (machine : Machine) (target : Address) :
    machine.Verdict (machine.jump target) := by
  unfold jump
  split
  · exact applied_verdict ⟨rfl, rfl, rfl, rfl, rfl⟩
  · exact .rejected _ rfl

theorem jumpFrom_verdict (machine : Machine) (base : Address) :
    machine.Verdict (machine.jumpFrom base) := by
  unfold jumpFrom
  dsimp only
  split
  · exact applied_verdict ⟨rfl, rfl, rfl, rfl, rfl⟩
  · exact .rejected _ rfl

/-- Both tests of a call come before its first change. -/
theorem call_verdict (machine : Machine) (target : Address) :
    machine.Verdict (machine.call target) := by
  unfold call
  split
  case isTrue => exact .rejected _ rfl
  split
  case isTrue => exact .rejected _ rfl
  case isFalse =>
    split
    · exact fault_verdict (.refl machine) _ rfl
    · exact applied_verdict ⟨rfl, rfl, rfl, rfl, rfl⟩

theorem leave_verdict (machine : Machine) : machine.Verdict machine.leave := by
  unfold leave
  split
  case isTrue => exact halt_verdict (.refl machine) _
  case isFalse =>
    dsimp only
    split
    · apply fault_verdict
      · exact ⟨rfl, rfl, rfl, rfl, rfl⟩
      · rfl
    · split
      · exact applied_verdict ⟨rfl, rfl, rfl, rfl, rfl⟩
      · apply halt_verdict
        exact ⟨rfl, rfl, rfl, rfl, rfl⟩

theorem skipKey_verdict (machine : Machine) (x : Register) (wanted : Bool) :
    machine.Verdict (machine.skipKey x wanted) := by
  unfold skipKey
  dsimp only
  split
  · exact .ignored _ rfl rfl
  · exact skipIf_verdict machine _

theorem awaitKey_verdict (machine : Machine) (x : Register) :
    machine.Verdict (machine.awaitKey x) := by
  unfold awaitKey
  split
  · exact .accepted ⟨by simp, by simp, ⟨rfl, rfl, rfl, rfl, rfl⟩, rfl⟩
  · exact applied_verdict ⟨rfl, rfl, rfl, rfl, rfl⟩

theorem addIndex_verdict (machine : Machine) (x : Register) :
    machine.Verdict (machine.addIndex x) := by
  refine .accepted ⟨by simp [addIndex], by simp [addIndex], ⟨rfl, rfl, rfl, rfl, rfl⟩, ?_⟩
  unfold addIndex
  dsimp only
  split <;> rfl

theorem storeAll_verdict (machine : Machine) (values : List Int) :
    machine.Verdict (machine.storeAll values) :=
  .accepted ⟨by simp [storeAll], by simp [storeAll], ⟨rfl, rfl, rfl, rfl, rfl⟩,
    Event.complaints_notes _⟩

theorem storeDigits_verdict (machine : Machine) (x : Register) :
    machine.Verdict (machine.storeDigits x) := by
  unfold storeDigits
  split
  · exact .rejected _ rfl
  · exact storeAll_verdict machine _

theorem storeRegisters_verdict (machine : Machine) (last : Register) :
    machine.Verdict (machine.storeRegisters last) := by
  unfold storeRegisters
  split
  · exact .rejected _ rfl
  · exact storeAll_verdict machine _

theorem loadRegisters_verdict (machine : Machine) (last : Register) :
    machine.Verdict (machine.loadRegisters last) := by
  unfold loadRegisters
  split
  · exact .rejected _ rfl
  · exact .accepted ⟨by simp, by simp, ⟨rfl, rfl, rfl, rfl, rfl⟩, Event.complaints_notes _⟩

/-- A sprite is rejected before it is read, so its accesses are not counted then. -/
theorem draw_verdict (machine : Machine) (x y : Register) (rows : Fin 16) :
    machine.Verdict (machine.draw x y rows) := by
  unfold draw
  split
  case isTrue => exact .ignored _ rfl rfl
  split
  case isTrue => exact .rejected _ rfl
  case isFalse =>
    dsimp only
    split
    · apply fault_verdict
      · exact ⟨rfl, rfl, rfl, rfl, rfl⟩
      · exact Event.complaints_notes _
    · split
      · apply fault_verdict
        · exact ⟨rfl, rfl, rfl, rfl, rfl⟩
        · exact Event.complaints_notes _
      · exact .accepted ⟨by simp, by simp, ⟨rfl, rfl, rfl, rfl, rfl⟩, Event.complaints_notes _⟩

theorem combine_sameCounts (machine : Machine) (operation : Operation) (x y : Register) :
    (machine.combine operation x y).SameCounts machine := by
  rw [combine_registers]
  exact ⟨rfl, rfl, rfl, rfl, rfl⟩

theorem execute_verdict (machine : Machine) (instruction : Instruction) :
    machine.Verdict (machine.execute instruction) := by
  cases instruction with
  | clearScreen => exact applied_verdict ⟨rfl, rfl, rfl, rfl, rfl⟩
  | leave => exact leave_verdict machine
  | stop => exact halt_verdict (.refl machine) _
  | callNative word => exact .ignored _ rfl rfl
  | jump target => exact jump_verdict machine target
  | call target => exact call_verdict machine target
  | skipEqual x value => exact skipIf_verdict machine _
  | skipUnequal x value => exact skipIf_verdict machine _
  | skipSame x y => exact skipIf_verdict machine _
  | skipDifferent x y => exact skipIf_verdict machine _
  | put x value => exact applied_verdict ⟨rfl, rfl, rfl, rfl, rfl⟩
  | add x value => exact applied_verdict ⟨rfl, rfl, rfl, rfl, rfl⟩
  | combine operation x y => exact applied_verdict (combine_sameCounts machine operation x y)
  | setIndex target => exact applied_verdict ⟨rfl, rfl, rfl, rfl, rfl⟩
  | jumpFrom base => exact jumpFrom_verdict machine base
  | random x mask => exact applied_verdict ⟨rfl, rfl, rfl, rfl, rfl⟩
  | draw x y rows => exact draw_verdict machine x y rows
  | skipPressed x => exact skipKey_verdict machine x true
  | skipReleased x => exact skipKey_verdict machine x false
  | readDelay x => exact applied_verdict ⟨rfl, rfl, rfl, rfl, rfl⟩
  | awaitKey x => exact awaitKey_verdict machine x
  | setDelay x => exact applied_verdict ⟨rfl, rfl, rfl, rfl, rfl⟩
  | setSound x => exact applied_verdict ⟨rfl, rfl, rfl, rfl, rfl⟩
  | addIndex x => exact addIndex_verdict machine x
  | findGlyph x => exact applied_verdict ⟨rfl, rfl, rfl, rfl, rfl⟩
  | storeDigits x => exact storeDigits_verdict machine x
  | storeRegisters x => exact storeRegisters_verdict machine x
  | loadRegisters x => exact loadRegisters_verdict machine x

theorem perform_verdict (machine : Machine) (word : Int) :
    machine.Verdict (machine.perform word) := by
  unfold perform
  split
  · exact execute_verdict machine _
  · exact .rejected _ rfl

/-- A complaint is counted in one of the three counts. -/
theorem count_category (tally : Tally) (complaint : Complaint) :
    tally.count complaint.category = { tally with bounds := tally.bounds + 1 } ∨
    tally.count complaint.category = { tally with structural := tally.structural + 1 } ∨
    tally.count complaint.category = { tally with decode := tally.decode + 1 } := by
  cases complaint <;> simp [Complaint.category, Tally.count]

/-- A rejected word changes no more than the count of errors and one of the three counts that it is
made of. An ignored word changes nothing. -/
theorem perform_atomic (machine : Machine) (word : Int) :
    ((machine.perform word).result = .ok .rejected →
      ∃ complaint tally,
        (machine.perform word).events = [.complaint complaint machine.position] ∧
        (machine.perform word).machine =
          { machine with errors := machine.errors + 1, tally := tally } ∧
        (tally = { machine.tally with bounds := machine.tally.bounds + 1 } ∨
          tally = { machine.tally with structural := machine.tally.structural + 1 } ∨
          tally = { machine.tally with decode := machine.tally.decode + 1 })) ∧
    ((machine.perform word).result = .ok .ignored → (machine.perform word).machine = machine) := by
  cases perform_verdict machine word with
  | rejected complaint whole =>
      rw [whole]
      refine ⟨fun _ => ⟨complaint, _, rfl, rfl, count_category machine.tally complaint⟩, ?_⟩
      intro ends
      simp [reject] at ends
  | ignored event quiet whole =>
      rw [whole]
      refine ⟨?_, fun _ => rfl⟩
      intro ends
      simp [ignore] at ends
  | accepted accepts =>
      exact ⟨fun ends => absurd ends accepts.notRejected,
        fun ends => absurd ends accepts.notIgnored⟩

/-- A new machine counts a jump to an odd address and passes over a call of native code. -/
theorem perform_atomic_jump :
    let machine := Machine.new (.blank 64 32) (.ofSeed 12345)
    ((machine.perform 0x1201).result = .ok .rejected ∧
      (machine.perform 0x1201).machine.errors = 1) ∧
    ((machine.perform 0x0123).result = .ok .ignored ∧ (machine.perform 0x0123).machine = machine) := by
  intro machine
  have rejects : (machine.perform 0x1201).result = .ok .rejected := rfl
  have ignores : (machine.perform 0x0123).result = .ok .ignored := rfl
  obtain ⟨complaint, tally, -, counted, -⟩ := (perform_atomic machine 0x1201).1 rejects
  refine ⟨⟨rejects, ?_⟩, ignores, (perform_atomic machine 0x0123).2 ignores⟩
  rw [counted]
  rfl

end Machine

end ChipEight
