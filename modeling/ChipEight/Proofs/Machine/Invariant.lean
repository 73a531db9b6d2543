/-
This file shows that every machine that a host can get is well formed, whatever was loaded into it and
in whatever order it was asked to run, to take keys and to start anew.
-/

import ChipEight.Proofs.Machine.Cycle
import ChipEight.Proofs.Run

namespace ChipEight.Machine

/-- A machine after a reset is well formed on every display with pixels. -/
theorem fresh_wellFormed (memory : Memory) {display : Display} (keypad : Keypad)
    (random : RandomBytes) (wide : 0 < display.width) (high : 0 < display.height) :
    (fresh memory display keypad random).WellFormed where
  registers := by
    intro place
    simp only [register, fresh, Fin.getElem_fin, Vector.getElem_replicate]
    exact isByte_zero
  index := by simp only [fresh]; omega
  counter := by simp only [fresh, Memory.programStart]; omega
  depth := by simp only [fresh]; omega
  stack := by
    intro slot below
    simp only [fresh] at below
    omega
  delay := isByte_zero
  sound := isByte_zero
  wide := wide
  high := high

variable {machine : Machine}

/-- Another memory, and a display to be shown anew, do no harm. -/
theorem WellFormed.withMemory (valid : machine.WellFormed) (memory : Memory) (redraw : Bool) :
    ({ machine with memory := memory, redraw := redraw } : Machine).WellFormed :=
  { valid with }

theorem reset_wellFormed (valid : machine.WellFormed) : machine.reset.WellFormed :=
  fresh_wellFormed _ _ _ valid.wide valid.high

/-- A program that is refused is noted, and one that is taken too. -/
theorem load_orderly (valid : machine.WellFormed) (program : Option (List UInt8)) :
    machine.Orderly (machine.serve (.load program)) := by
  have cleared := reset_wellFormed valid
  simp only [serve, load]
  split
  case h_1 note refused =>
    refine ⟨valid, .refl _, ⟨(), rfl⟩, ?_⟩
    intro event member
    rw [List.mem_singleton.mp member]
    unfold Memory.lengthNote? at refused
    split at refused
    · cases refused; exact id
    · split at refused
      · cases refused; exact id
      · cases refused
  case h_2 accepted =>
    refine ⟨cleared.withMemory _ true, Display.clear_sameSize _, ⟨(), rfl⟩, ?_⟩
    simp only [Memory.load, Option.getD_some, accepted]
    apply notes_inside
    intro note member
    rw [List.mem_singleton.mp member]
    exact id

/-- Events of the keypad are not stray. -/
theorem keypadNotes_inside (notes : List Keypad.Note) :
    ∀ event ∈ notes.map Event.keypad, ¬ event.IsStray := by
  intro event member
  obtain ⟨note, -, rfl⟩ := List.mem_map.mp member
  exact id

/-- Every request to a well-formed machine is orderly. -/
theorem serve_orderly (valid : machine.WellFormed) (request : Request) :
    machine.Orderly (machine.serve request) := by
  cases request with
  | load program => exact load_orderly valid program
  | reset =>
      refine ⟨reset_wellFormed valid, Display.clear_sameSize _, ⟨(), rfl⟩, ?_⟩
      intro event member
      cases member
  | press code => exact ⟨{ valid with }, .refl _, ⟨(), rfl⟩, keypadNotes_inside _⟩
  | release code => exact ⟨{ valid with }, .refl _, ⟨(), rfl⟩, keypadNotes_inside _⟩
  | cycle => exact cycle_orderly valid

theorem Reachable.wellFormed (reached : Reachable machine) : machine.WellFormed := by
  induction reached with
  | new display random wide high => exact fresh_wellFormed _ _ _ wide high
  | serve request _ ih => exact (serve_orderly ih request).wellFormed

theorem serveAll_orderly (valid : machine.WellFormed) (requests : List Request) :
    (machine.serveAll requests).WellFormed ∧
      (machine.serveAll requests).display.SameSize machine.display := by
  induction requests generalizing machine with
  | nil => exact ⟨valid, .refl _⟩
  | cons request rest ih =>
      have served := serve_orderly valid request
      obtain ⟨after, size⟩ := ih served.wellFormed
      exact ⟨after, size.trans served.size⟩

/-- Whatever a host asks of a new machine, and in whatever order, the machine stays well formed, has
as many registers, slots and bytes as before, a key of the keypad in its latch or none, and a display
of the same size. -/
theorem run_wellFormed (display : Display) (random : RandomBytes) (wide : 0 < display.width)
    (high : 0 < display.height) (requests : List Request) :
    let machine := (Machine.new display random).serveAll requests
    machine.WellFormed ∧ machine.display.SameSize display ∧
      machine.registers.toList.length = 16 ∧ machine.stack.toList.length = 16 ∧
      machine.memory.bytes.toList.length = 0x1000 ∧
      (∀ byte ∈ machine.memory.bytes.toList, IsByte byte.toNat) ∧
      ∀ key ∈ machine.keypad.latch, 0 ≤ key.val ∧ key.val ≤ 15 := by
  intro machine
  have start : (Machine.new display random).WellFormed := fresh_wellFormed _ _ _ wide high
  obtain ⟨valid, size⟩ := serveAll_orderly start requests
  refine ⟨valid, size, ?_, ?_, ?_, ?_, ?_⟩
  · exact Vector.length_toList
  · exact Vector.length_toList
  · exact Vector.length_toList
  · intro byte _
    exact isByte_uint8 byte
  · intro key _
    exact ⟨Nat.zero_le _, by omega⟩

/-- A run with a call, a return, keys that exist and that do not, and a reset. -/
theorem run_wellFormed_call :
    0 < (Display.blank 8 4).width ∧ 0 < (Display.blank 8 4).height ∧
      ((Machine.new (.blank 8 4) (.ofSeed 12345)).serveAll
        [.load (some [0x22, 0x02, 0x00, 0xee]), .press 3, .cycle, .cycle, .release 20, .reset,
          .cycle]).WellFormed :=
  ⟨by decide, by decide, (run_wellFormed _ _ (by decide) (by decide) _).1⟩

end ChipEight.Machine
