/-
This file says what is expected of an action on a well-formed machine: it ends without a fault,
touches no place that does not exist, and leaves a well-formed machine.
-/

import ChipEight.Proofs.Machine.WellFormed
import ChipEight.Proofs.Memory.Access

namespace ChipEight

/-- The event of an access that goes astray: to an address outside the memory, for a word that is not
wholly in it, or at a counter between two words. -/
def Event.IsStray : Event → Prop
  | .memory note => note.IsOutside
  | .complaint (.fetchOutside _) _ => True
  | .complaint (.counterOdd _) _ => True
  | .halted .fetchOutside => True
  | _ => False

namespace Machine

/-- An action of the machine that ends without a fault and stays inside. -/
structure Orderly {A : Type} (machine : Machine) (outcome : Outcome (Except Fault A)) : Prop where
  wellFormed : outcome.machine.WellFormed
  size : outcome.machine.display.SameSize machine.display
  returns : ∃ value, outcome.result = .ok value
  inside : ∀ event ∈ outcome.events, ¬ event.IsStray

/-- The notes of accesses inside the memory are no stray events. -/
theorem notes_inside {notes : List Memory.Note} (inside : ∀ note ∈ notes, ¬ note.IsOutside) :
    ∀ event ∈ notes.map Event.memory, ¬ event.IsStray := by
  intro event member
  obtain ⟨note, found, rfl⟩ := List.mem_map.mp member
  exact inside note found

variable {machine : Machine}

theorem applied_orderly {after : Machine} (valid : after.WellFormed)
    (size : after.display.SameSize machine.display) : machine.Orderly (applied after) :=
  ⟨valid, size, ⟨.applied, rfl⟩, by intro event member; cases member⟩

theorem reject_orderly (valid : machine.WellFormed) {complaint : Complaint}
    (usual : ∀ position, ¬ (Event.complaint complaint position).IsStray) :
    machine.Orderly (machine.reject complaint) := by
  refine ⟨{ valid with }, .refl _, ⟨.rejected, rfl⟩, ?_⟩
  intro event member
  rw [List.mem_singleton.mp member]
  exact usual machine.position

theorem ignore_orderly (valid : machine.WellFormed) {event : Event} (usual : ¬ event.IsStray) :
    machine.Orderly (machine.ignore event) := by
  refine ⟨valid, .refl _, ⟨.ignored, rfl⟩, ?_⟩
  intro other member
  rw [List.mem_singleton.mp member]
  exact usual

theorem halt_orderly {after : Machine} (valid : after.WellFormed)
    (size : after.display.SameSize machine.display) {reason : HaltReason}
    (usual : ¬ (Event.halted reason).IsStray) : machine.Orderly (after.halt reason) := by
  refine ⟨{ valid with }, size, ⟨.halted, rfl⟩, ?_⟩
  intro event member
  rw [List.mem_singleton.mp member]
  exact usual

end Machine

end ChipEight
