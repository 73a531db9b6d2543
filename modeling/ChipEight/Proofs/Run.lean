/-
This file holds the runs of a machine: what a host asks of it, one request after another, and the
machines that such runs reach.
-/

import ChipEight.Machine.Cycle
import ChipEight.Proofs.Memory.Program

namespace ChipEight

/-- What a host asks of a machine. -/
inductive Request where
  | load (program : Option (List UInt8))
  | reset
  | press (code : Int)
  | release (code : Int)
  | cycle
  deriving DecidableEq, Repr

namespace Request

/-- A reset, and a program that is taken, make the machine begin anew. -/
def renews : Request → Bool
  | load program => (Memory.lengthNote? (program.getD []).length).isNone
  | reset => true
  | _ => false

/-- A program is taken if it is not empty and fits into its area. -/
theorem renews_load_iff (program : Option (List UInt8)) :
    (load program).renews = true ↔
      1 ≤ (program.getD []).length ∧ (program.getD []).length ≤ Memory.largestProgram := by
  unfold renews
  rw [Option.isNone_iff_eq_none]
  exact Memory.lengthNote?_eq_none_iff _

/-- What a request does to the keypad of a machine that does not begin anew and is halted. -/
def turnKey (keypad : Keypad) : Request → Keypad
  | press code => keypad.press code
  | release code => keypad.release code
  | _ => keypad

end Request

namespace Machine

/-- What comes of a request. Only a cycle can end with a fault. -/
def serve (machine : Machine) : Request → Outcome (Except Fault Unit)
  | .load program =>
      let loaded := machine.load program
      ⟨loaded.machine, .ok (), loaded.events⟩
  | .reset => ⟨machine.reset, .ok (), []⟩
  | .press code => ⟨machine.press code, .ok (), (Keypad.pressNotes code).map .keypad⟩
  | .release code => ⟨machine.release code, .ok (), (Keypad.releaseNotes code).map .keypad⟩
  | .cycle => machine.cycle

/-- The machine after some requests. -/
def serveAll (machine : Machine) : List Request → Machine
  | [] => machine
  | request :: rest => (machine.serve request).machine.serveAll rest

/-- What happens during some requests. -/
def happenings (machine : Machine) : List Request → List Event
  | [] => []
  | request :: rest =>
      (machine.serve request).events ++ (machine.serve request).machine.happenings rest

/-- The cycles among some requests at which the machine is not halted yet. -/
def activeCycles (machine : Machine) : List Request → Nat
  | [] => 0
  | request :: rest =>
      (if request = .cycle ∧ machine.halted = false then 1 else 0) +
        (machine.serve request).machine.activeCycles rest

/-- A program is taken where its length allows, whatever machine it is for. -/
theorem load_result (machine : Machine) (program : Option (List UInt8)) :
    (machine.load program).result = (Request.load program).renews := by
  unfold load Request.renews
  dsimp only
  split
  case h_1 note refused => rw [refused]; rfl
  case h_2 accepted => rw [accepted]; rfl

/-- A program that is refused leaves the machine as it was. -/
theorem load_refused (machine : Machine) {program : Option (List UInt8)}
    (refused : (Request.load program).renews = false) :
    (machine.load program).machine = machine := by
  unfold Request.renews at refused
  unfold load
  dsimp only at refused ⊢
  split
  case h_1 => rfl
  case h_2 accepted =>
    rw [accepted] at refused
    cases refused

/-- A program that is taken is put into the memory of a machine that begins anew, and the display is to
be shown. -/
theorem load_taken (machine : Machine) {program : Option (List UInt8)}
    (taken : (Request.load program).renews = true) :
    (machine.load program).machine = { machine.reset with
      memory := machine.reset.memory.withProgram (program.getD [])
      redraw := true } := by
  have accepted := Option.isNone_iff_eq_none.mp taken
  simp only [load, Memory.load, Option.getD_some, accepted]

@[simp] theorem serveAll_nil (machine : Machine) : machine.serveAll [] = machine := rfl

@[simp] theorem serveAll_cons (machine : Machine) (request : Request) (rest : List Request) :
    machine.serveAll (request :: rest) = (machine.serve request).machine.serveAll rest := rfl

theorem serveAll_load_cycle (machine : Machine) (program : Option (List UInt8)) :
    machine.serveAll [.load program, .cycle] = (machine.load program).machine.cycle.machine := rfl

theorem serveAll_cycle (machine : Machine) : machine.serveAll [.cycle] = machine.cycle.machine := rfl

theorem serveAll_append (machine : Machine) (first second : List Request) :
    machine.serveAll (first ++ second) = (machine.serveAll first).serveAll second := by
  induction first generalizing machine with
  | nil => rfl
  | cons request rest ih => exact ih (machine.serve request).machine

/-- What a machine has and every request keeps holds after all requests. -/
theorem serveAll_keeps {holds : Machine → Prop} (kept : ∀ machine request, holds machine →
    holds (machine.serve request).machine) (machine : Machine) (requests : List Request)
    (start : holds machine) : holds (machine.serveAll requests) := by
  induction requests generalizing machine with
  | nil => exact start
  | cons request rest ih => exact ih _ (kept machine request start)

/-- The machines that a host can get from new ones, whose displays have at least one pixel. -/
inductive Reachable : Machine → Prop where
  | new (display : Display) (random : RandomBytes) (wide : 0 < display.width)
      (high : 0 < display.height) : Reachable (.new display random)
  | serve {machine : Machine} (request : Request) (reached : Reachable machine) :
      Reachable (machine.serve request).machine

theorem Reachable.serveAll {machine : Machine} (reached : Reachable machine)
    (requests : List Request) : Reachable (machine.serveAll requests) :=
  serveAll_keeps (fun _ request held => held.serve request) machine requests reached

end Machine

end ChipEight
