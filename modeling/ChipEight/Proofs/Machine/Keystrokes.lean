/-
This file shows that keys matter only to the words that ask for them. As long as none of these is executed,
machines that differ in their keypads only go through the same cycles and leave their keypads alone, and
it does not matter when a key goes down or up.
-/

import ChipEight.Proofs.Machine.Lockstep

namespace ChipEight

/-- A key goes down or up, if there is one of the code. -/
inductive Request.Keystroke : Request → Prop where
  | press (code : Int) : Keystroke (.press code)
  | release (code : Int) : Keystroke (.release code)

/-- So many cycles one after another. -/
def Request.cycles (count : Nat) : List Request := List.replicate count .cycle

namespace Machine

/-- The machine with another keypad. -/
def withKeypad (machine : Machine) (keypad : Keypad) : Machine :=
  { machine with keypad := keypad }

def Outcome.withKeypad {A : Type} (outcome : Outcome A) (keypad : Keypad) : Outcome A :=
  ⟨outcome.machine.withKeypad keypad, outcome.result, outcome.events⟩

/-- No word that is executed during the requests asks for keys. -/
def Deaf (machine : Machine) (requests : List Request) : Prop :=
  ∀ execution ∈ machine.executions requests, ¬ Opcode.Listed Opcode.keyed execution.1

variable {machine : Machine}

/-- Another keypad is an alteration that leaves the random bytes and the flag to redraw. -/
theorem withKeypad_eq_altered (machine : Machine) (keypad : Keypad) :
    machine.withKeypad keypad = machine.altered ⟨id, fun _ => keypad, false⟩ := by
  unfold withKeypad altered
  rw [Bool.or_false]
  rfl

theorem Outcome.withKeypad_eq_altered {A : Type} (outcome : Outcome A) (keypad : Keypad) :
    outcome.withKeypad keypad = outcome.altered ⟨id, fun _ => keypad, false⟩ :=
  congrArg (fun machine => Outcome.mk machine outcome.result outcome.events)
    (Machine.withKeypad_eq_altered outcome.machine keypad)

/-- A keystroke changes the keypad only. -/
theorem serve_keystroke (machine : Machine) {stroke : Request} (strikes : stroke.Keystroke) :
    (machine.serve stroke).machine = machine.withKeypad (stroke.turnKey machine.keypad) := by
  cases strikes <;> rfl

/-! ### A cycle -/

/-- Another keypad leaves alone a word that asks for no key. -/
theorem withKeypad_spares (keypad : Keypad)
    (deaf : ∀ execution, machine.execution? = some execution →
      ¬ Opcode.Listed Opcode.keyed execution.1) :
    ∀ execution, machine.execution? = some execution →
      Alteration.Spares ⟨id, fun _ => keypad, false⟩ execution.1 :=
  fun execution found => ⟨fun _ => rfl, fun asks => absurd asks (deaf execution found)⟩

theorem cycle_withKeypad (machine : Machine) (keypad : Keypad)
    (deaf : ∀ execution, machine.execution? = some execution →
      ¬ Opcode.Listed Opcode.keyed execution.1) :
    (machine.withKeypad keypad).cycle = machine.cycle.withKeypad keypad := by
  rw [withKeypad_eq_altered, Outcome.withKeypad_eq_altered]
  exact cycle_altered machine (withKeypad_spares keypad deaf)

theorem execution_withKeypad (machine : Machine) (keypad : Keypad)
    (deaf : ∀ execution, machine.execution? = some execution →
      ¬ Opcode.Listed Opcode.keyed execution.1) :
    (machine.withKeypad keypad).execution? = machine.execution? := by
  rw [withKeypad_eq_altered]
  exact execution_altered machine (withKeypad_spares keypad deaf)

/-- The machine has its own keypad, so it is the one that a cycle leaves. -/
theorem cycle_keypad (machine : Machine)
    (deaf : ∀ execution, machine.execution? = some execution →
      ¬ Opcode.Listed Opcode.keyed execution.1) :
    machine.cycle.machine.keypad = machine.keypad :=
  congrArg (fun outcome => outcome.machine.keypad) (machine.cycle_withKeypad machine.keypad deaf)

/-! ### Runs -/

theorem Deaf.cycle {rest : List Request} (deaf : machine.Deaf (.cycle :: rest)) :
    ∀ execution, machine.execution? = some execution →
      ¬ Opcode.Listed Opcode.keyed execution.1 := by
  intro execution found
  apply deaf
  unfold executions
  rw [if_pos rfl, found]
  exact List.mem_append_left _ (List.mem_singleton_self _)

theorem Deaf.rest {request : Request} {rest : List Request} (deaf : machine.Deaf (request :: rest)) :
    (machine.serve request).machine.Deaf rest :=
  fun execution member => deaf execution (List.mem_append_right _ member)

/-- The machine goes through the cycles alike with any keypad, and leaves it alone. -/
theorem cycles_withKeypad (machine : Machine) (keypad : Keypad) {count : Nat}
    (deaf : machine.Deaf (Request.cycles count)) :
    (machine.withKeypad keypad).serveAll (Request.cycles count) =
        (machine.serveAll (Request.cycles count)).withKeypad keypad ∧
      (machine.serveAll (Request.cycles count)).keypad = machine.keypad ∧
      (machine.withKeypad keypad).happenings (Request.cycles count) =
        machine.happenings (Request.cycles count) ∧
      (machine.withKeypad keypad).executions (Request.cycles count) =
        machine.executions (Request.cycles count) := by
  induction count generalizing machine with
  | zero => exact ⟨rfl, rfl, rfl, rfl⟩
  | succ count ih =>
      obtain ⟨after, kept, happen, execute⟩ := ih machine.cycle.machine deaf.rest
      have cycled := machine.cycle_withKeypad keypad deaf.cycle
      have first := machine.execution_withKeypad keypad deaf.cycle
      refine ⟨?_, kept.trans (machine.cycle_keypad deaf.cycle), ?_, ?_⟩
      · change (machine.withKeypad keypad).cycle.machine.serveAll (Request.cycles count) = _
        rw [cycled]
        exact after
      · change (machine.withKeypad keypad).cycle.events ++
          (machine.withKeypad keypad).cycle.machine.happenings (Request.cycles count) = _
        rw [cycled]
        exact congrArg _ happen
      · change (machine.withKeypad keypad).execution?.toList ++
          (machine.withKeypad keypad).cycle.machine.executions (Request.cycles count) = _
        rw [cycled, first]
        exact congrArg _ execute

theorem Deaf.append_left {first second : List Request} (deaf : machine.Deaf (first ++ second)) :
    machine.Deaf first := by
  intro execution member
  apply deaf
  rw [executions_append]
  exact List.mem_append_left _ member

/-- A part of the cycles from the first one on asks for no key either. -/
theorem Deaf.fewer {passed count : Nat} (deaf : machine.Deaf (Request.cycles count))
    (within : passed ≤ count) : machine.Deaf (Request.cycles passed) := by
  obtain ⟨more, rfl⟩ := Nat.exists_eq_add_of_le within
  unfold Request.cycles at deaf
  rw [← List.replicate_append_replicate] at deaf
  exact deaf.append_left

/-- A keystroke before the cycles is as good as one after them. -/
theorem cycles_keystroke (machine : Machine) {count : Nat}
    (deaf : machine.Deaf (Request.cycles count)) {stroke : Request} (strikes : stroke.Keystroke) :
    machine.serveAll (stroke :: Request.cycles count) =
      machine.serveAll (Request.cycles count ++ [stroke]) := by
  obtain ⟨after, kept, -, -⟩ :=
    machine.cycles_withKeypad (stroke.turnKey machine.keypad) deaf
  rw [serveAll_append, serveAll_cons, serveAll_cons, serveAll_nil, serve_keystroke _ strikes,
    serve_keystroke _ strikes, after, kept]

/-- Two machines that differ in their keypads only, and cycles in which no word is executed that asks for
keys. After each of the cycles the machines differ in their keypads only, which are as they were; the same
happens to both, and they execute the same words. A keystroke may come after the cycles or before them,
whatever comes later. -/
theorem keys_unheeded (first second : Machine)
    (apart : second = { first with keypad := second.keypad }) (count : Nat)
    (deaf : ∀ execution ∈ first.executions (Request.cycles count),
      ¬ Opcode.Listed [.closing 0xe 0x9e, .closing 0xe 0xa1, .closing 0xf 0x0a] execution.1) :
    (∀ passed ≤ count,
      let one := first.serveAll (Request.cycles passed)
      let two := second.serveAll (Request.cycles passed)
      two = { one with keypad := two.keypad } ∧
        one.keypad = first.keypad ∧ two.keypad = second.keypad ∧
        second.happenings (Request.cycles passed) = first.happenings (Request.cycles passed) ∧
        second.executions (Request.cycles passed) = first.executions (Request.cycles passed)) ∧
    ∀ passed ≤ count, ∀ stroke : Request, stroke.Keystroke → ∀ later,
      first.serveAll (stroke :: (Request.cycles passed ++ later)) =
        first.serveAll (Request.cycles passed ++ stroke :: later) := by
  refine ⟨?_, ?_⟩
  · intro passed within one two
    obtain ⟨after, kept, happen, execute⟩ :=
      first.cycles_withKeypad second.keypad (Deaf.fewer deaf within)
    rw [show first.withKeypad second.keypad = second from apart.symm] at after happen execute
    have keys : two.keypad = second.keypad := by
      change (second.serveAll (Request.cycles passed)).keypad = _
      rw [after]
      rfl
    refine ⟨?_, kept, keys, happen, execute⟩
    rw [keys]
    exact after
  · intro passed within stroke strikes later
    have moved := first.cycles_keystroke (Deaf.fewer deaf within) strikes
    rw [← List.cons_append, serveAll_append, moved, ← serveAll_append, List.append_assoc]
    rfl

/-- A machine at a jump to where it is comes back to it. -/
theorem looping_again (faces : machine.Faces 0x1200) (home : machine.counter = 0x200) :
    machine.execution? = some (0x1200, .applied) ∧ machine.cycle.machine.Faces 0x1200 ∧
      machine.cycle.machine.counter = 0x200 := by
  obtain ⟨memory, same, goes⟩ := cycle_word faces.awake faces.few faces.allowed faces.found
  obtain ⟨execution, after⟩ := goes .applied rfl
  have found : wordAt memory 0x200 = 0x1200 := by
    rw [wordAt_congr same, ← home]
    exact faces.found
  let landed : Machine := { machine.begun with
    memory := memory
    counter := 0x200
    last := 0x1200 }
  have few : landed.tick.errors < haltThreshold := faces.few
  change machine.cycle.machine = landed.tick.checkErrors.machine at after
  rw [checkErrors_few few] at after
  rw [after]
  exact ⟨execution, ⟨faces.awake, faces.few, rfl, found⟩, rfl⟩

theorem looping_deaf (faces : machine.Faces 0x1200) (home : machine.counter = 0x200) (count : Nat) :
    machine.Deaf (Request.cycles count) := by
  induction count generalizing machine with
  | zero => nofun
  | succ count ih =>
      obtain ⟨execution, next, back⟩ := looping_again faces home
      intro executed member
      change executed ∈ machine.execution?.toList ++
        machine.cycle.machine.executions (Request.cycles count) at member
      rw [execution] at member
      rcases List.mem_append.mp member with first | later
      · rw [List.mem_singleton.mp first]
        decide
      · exact ih next back executed later

/-- A program that jumps to its start for a thousand cycles: it does not matter whether a key goes down
before them or after them. -/
theorem keys_unheeded_loop :
    let first := (Machine.new (.blank 8 4) (.ofSeed 12345)).serveAll
      [.load (some [0x12, 0x00]), .press 3]
    let second := { first with keypad := .initial }
    second = { first with keypad := second.keypad } ∧ first.Deaf (Request.cycles 1000) ∧
      (second.serveAll (Request.cycles 1000)).keypad = .initial ∧
      first.serveAll (.press 7 :: (Request.cycles 1000 ++ [.cycle])) =
        first.serveAll (Request.cycles 1000 ++ [.press 7, .cycle]) := by
  intro first second
  have faces : first.Faces 0x1200 := by
    obtain ⟨awake, few, allowed, found⟩ := @load_faces (Machine.new (.blank 8 4) (.ofSeed 12345))
      [0x12, 0x00] (by decide) (by decide)
    exact ⟨awake, few, allowed, found⟩
  have deaf := looping_deaf faces rfl 1000
  obtain ⟨apart, moved⟩ := keys_unheeded first second rfl 1000 deaf
  exact ⟨rfl, deaf, (apart 1000 (Nat.le_refl 1000)).2.2.1,
    moved 1000 (Nat.le_refl 1000) _ (.press 7) [.cycle]⟩

end Machine

end ChipEight
