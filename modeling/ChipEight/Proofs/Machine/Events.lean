/-
This file sorts events by what makes them: an instruction never makes the complaint that a word is no
instruction, and only a cycle says that a word was executed.
-/

import ChipEight.Proofs.Machine.Cycle

namespace ChipEight

/-- The events that an instruction may make. -/
def Event.OfInstruction : Event → Prop
  | .complaint cause _ => cause.category ≠ .decode
  | .executed _ _ _ => False
  | _ => True

/-- The word that an event says was executed, and how that ended. -/
def Event.executed? : Event → Option (Int × Status)
  | .executed _ word status => some (word, status)
  | _ => none

/-- No instruction says that a word was executed. -/
theorem Event.OfInstruction.executed?_eq_none {event : Event} (usual : event.OfInstruction) :
    event.executed? = none := by
  cases event with
  | executed place word status => exact usual.elim
  | _ => rfl

namespace Machine

variable {machine : Machine}

theorem no_events : ∀ event ∈ ([] : List Event), event.OfInstruction := by
  intro event member
  cases member

theorem single_events {event : Event} (usual : event.OfInstruction) :
    ∀ other ∈ [event], other.OfInstruction := by
  intro other member
  rw [List.mem_singleton.mp member]
  exact usual

theorem reject_events {complaint : Complaint} (usual : complaint.category ≠ .decode) :
    ∀ event ∈ (machine.reject complaint).events, event.OfInstruction :=
  single_events usual

theorem notes_events (notes : List Memory.Note) :
    ∀ event ∈ notes.map Event.memory, event.OfInstruction := by
  intro event member
  obtain ⟨note, -, rfl⟩ := List.mem_map.mp member
  trivial

theorem jump_events (machine : Machine) (target : Address) :
    ∀ event ∈ (machine.jump target).events, event.OfInstruction := by
  unfold jump
  split
  · exact no_events
  · exact reject_events (by simp [Complaint.category])

theorem jumpFrom_events (machine : Machine) (base : Address) :
    ∀ event ∈ (machine.jumpFrom base).events, event.OfInstruction := by
  unfold jumpFrom
  dsimp only
  split
  · exact no_events
  · exact reject_events (by simp [Complaint.category])

theorem call_events (machine : Machine) (target : Address) :
    ∀ event ∈ (machine.call target).events, event.OfInstruction := by
  unfold call
  split
  case isTrue => exact reject_events (by simp [Complaint.category])
  split
  case isTrue => exact reject_events (by simp [Complaint.category])
  case isFalse => split <;> exact no_events

theorem leave_events (machine : Machine) :
    ∀ event ∈ machine.leave.events, event.OfInstruction := by
  unfold leave
  split
  case isTrue => exact single_events trivial
  case isFalse =>
    dsimp only
    split
    · exact no_events
    · split
      · exact no_events
      · exact single_events trivial

theorem skipKey_events (machine : Machine) (x : Register) (wanted : Bool) :
    ∀ event ∈ (machine.skipKey x wanted).events, event.OfInstruction := by
  unfold skipKey
  dsimp only
  split
  · exact single_events trivial
  · exact no_events

theorem awaitKey_events (machine : Machine) (x : Register) :
    ∀ event ∈ (machine.awaitKey x).events, event.OfInstruction := by
  unfold awaitKey
  split <;> exact no_events

theorem addIndex_events (machine : Machine) (x : Register) :
    ∀ event ∈ (machine.addIndex x).events, event.OfInstruction := by
  unfold addIndex
  dsimp only
  split
  · exact single_events trivial
  · exact no_events

theorem storeDigits_events (machine : Machine) (x : Register) :
    ∀ event ∈ (machine.storeDigits x).events, event.OfInstruction := by
  unfold storeDigits
  split
  · exact reject_events (by simp [Complaint.category])
  · exact notes_events _

theorem storeRegisters_events (machine : Machine) (last : Register) :
    ∀ event ∈ (machine.storeRegisters last).events, event.OfInstruction := by
  unfold storeRegisters
  split
  · exact reject_events (by simp [Complaint.category])
  · exact notes_events _

theorem loadRegisters_events (machine : Machine) (last : Register) :
    ∀ event ∈ (machine.loadRegisters last).events, event.OfInstruction := by
  unfold loadRegisters
  split
  · exact reject_events (by simp [Complaint.category])
  · exact notes_events _

theorem draw_events (machine : Machine) (x y : Register) (rows : Fin 16) :
    ∀ event ∈ (machine.draw x y rows).events, event.OfInstruction := by
  unfold draw
  split
  case isTrue => exact single_events trivial
  split
  case isTrue => exact reject_events (by simp [Complaint.category])
  case isFalse =>
    dsimp only
    split
    · exact notes_events _
    · split <;> exact notes_events _

theorem execute_events (machine : Machine) (instruction : Instruction) :
    ∀ event ∈ (machine.execute instruction).events, event.OfInstruction := by
  cases instruction with
  | leave => exact leave_events machine
  | stop => exact single_events trivial
  | callNative word => exact single_events trivial
  | jump target => exact jump_events machine target
  | call target => exact call_events machine target
  | jumpFrom base => exact jumpFrom_events machine base
  | draw x y rows => exact draw_events machine x y rows
  | skipPressed x => exact skipKey_events machine x true
  | skipReleased x => exact skipKey_events machine x false
  | awaitKey x => exact awaitKey_events machine x
  | addIndex x => exact addIndex_events machine x
  | storeDigits x => exact storeDigits_events machine x
  | storeRegisters x => exact storeRegisters_events machine x
  | loadRegisters x => exact loadRegisters_events machine x
  | clearScreen | skipEqual | skipUnequal | skipSame | skipDifferent | put | add | combine
  | setIndex | random | readDelay | setDelay | setSound | findGlyph => exact no_events

end Machine

end ChipEight
