/-
This file says which word a cycle executes: the one at the counter, if the machine runs and its
counter is in order, and otherwise none.
-/

import ChipEight.Proofs.Machine.Decoding

namespace ChipEight.Machine

/-- The word that the next cycle executes and how that ends, if it comes to execute one. -/
def execution? (machine : Machine) : Option (Int × Status) :=
  machine.cycle.events.findSome? Event.executed?

variable {machine : Machine}

/-- Only a cycle says that a word was executed, not the word. -/
theorem perform_silent (machine : Machine) (word : Int) :
    (machine.perform word).events.findSome? Event.executed? = none := by
  rw [List.findSome?_eq_none_iff]
  intro event member
  rcases machine.perform_cases word with ⟨instruction, -, goes⟩ | ⟨-, goes⟩
  · rw [goes] at member
    exact (execute_events machine instruction event member).executed?_eq_none
  · rw [goes] at member
    rw [List.mem_singleton.mp member]
    rfl

theorem fetch_silent (allowed : isProgramAddress machine.counter = true) :
    machine.fetch.events.findSome? Event.executed? = none := by
  obtain ⟨memory, notes, fetched, -, -⟩ := fetch_inside allowed
  rw [fetched, List.findSome?_eq_none_iff]
  intro event member
  exact (notes_events notes event member).executed?_eq_none

theorem advance_ok (machine : Machine) {status : Status}
    (ends : machine.performed.result = .ok status) :
    machine.advance =
      ⟨machine.performed.machine.tick.checkErrors.machine, .ok (),
        machine.fetch.events ++ machine.performed.events ++
          .executed (machine.performed.machine.counter - 2) machine.fetch.result status ::
            machine.performed.machine.tick.checkErrors.events⟩ := by
  unfold performed loaded at ends
  unfold advance
  dsimp only
  rw [ends]
  rfl

/-- A cycle that fetches a word says that it executes the word and how that ends. -/
theorem advance_execution (machine : Machine) (allowed : isProgramAddress machine.counter = true)
    {status : Status} (ends : machine.performed.result = .ok status) :
    machine.advance.events.findSome? Event.executed? = some (machine.fetch.result, status) ∧
      machine.advance.machine = machine.performed.machine.tick.checkErrors.machine := by
  have performing : machine.performed.events.findSome? Event.executed? = none :=
    machine.loaded.perform_silent machine.fetch.result
  rw [machine.advance_ok ends]
  refine ⟨?_, rfl⟩
  rw [List.findSome?_append, List.findSome?_append, fetch_silent allowed, performing]
  rfl

/-- A machine that runs with its counter in order executes the word there. -/
theorem cycle_executes (awake : machine.halted = false) (few : machine.errors < haltThreshold)
    (allowed : isProgramAddress machine.counter = true) {status : Status}
    (ends : machine.begun.performed.result = .ok status) :
    machine.execution? = some (machine.begun.fetch.result, status) ∧
      machine.cycle.machine = machine.begun.performed.machine.tick.checkErrors.machine := by
  have goes : machine.cycle = machine.begun.advance := by
    rcases machine.cycle_cases with ⟨stopped, -⟩ | ⟨-, many, -⟩ | ⟨-, -, complaint, found, -⟩ |
      ⟨-, -, -, goes⟩
    · exact absurd (awake.symm.trans stopped) Bool.false_ne_true
    · exact absurd many (Int.not_le.mpr few)
    · rw [(counterComplaint?_eq_none_iff machine).mpr allowed] at found
      cases found
    · exact goes
  unfold execution?
  rw [goes]
  exact machine.begun.advance_execution allowed ends

/-- The word at the counter of a machine that runs is performed by the machine with its counter behind
the word. Of the memory then only the count of accesses is new. -/
theorem cycle_word (awake : machine.halted = false) (few : machine.errors < haltThreshold)
    (allowed : isProgramAddress machine.counter = true) {word : Int}
    (found : wordAt machine.memory machine.counter = word) :
    ∃ memory : Memory, memory.bytes = machine.memory.bytes ∧
      let performed := perform { machine.begun with
        memory := memory
        counter := machine.counter + 2
        last := word } word
      ∀ status, performed.result = .ok status →
        machine.execution? = some (word, status) ∧
          machine.cycle.machine = performed.machine.tick.checkErrors.machine := by
  obtain ⟨memory, notes, same, -, -, loads⟩ := machine.begun.loaded_eq allowed
  have fetched : machine.begun.fetch.result = word :=
    (machine.begun.fetch_word allowed).trans found
  have performs : machine.begun.performed = perform { machine.begun with
      memory := memory
      counter := machine.counter + 2
      last := word } word := by
    rw [← found] at fetched ⊢
    unfold performed
    rw [fetched, loads]
    rfl
  refine ⟨memory, same, ?_⟩
  intro performed status ends
  have executes := cycle_executes awake few allowed ((congrArg Outcome.result performs).trans ends)
  rw [fetched, performs] at executes
  exact executes

/-- The courses that a cycle may take: it executes no word and leaves all but the counter and the
counts as it was, or its word ends with a fault, or it executes its word. -/
inductive Course (machine : Machine) : Prop where
  | idle (silent : machine.execution? = none) (counter : Int) (halted : Bool) (errors : Int)
      (tally : Tally) (cycles : Nat)
      (after : machine.cycle.machine = { machine with
        tone := false
        counter := counter
        halted := halted
        errors := errors
        tally := tally
        cycles := cycles })
  | faulted (silent : machine.execution? = none) (fault : Fault)
      (allowed : isProgramAddress machine.counter = true)
      (ends : machine.begun.performed.result = .error fault)
      (after : machine.cycle.machine = machine.begun.performed.machine)
  | executed (status : Status) (awake : machine.halted = false)
      (few : machine.errors < haltThreshold) (allowed : isProgramAddress machine.counter = true)
      (ends : machine.begun.performed.result = .ok status)
      (execution : machine.execution? = some (machine.begun.fetch.result, status))
      (after : machine.cycle.machine = machine.begun.performed.machine.tick.checkErrors.machine)

theorem cycle_course (machine : Machine) : machine.Course := by
  rcases machine.cycle_cases with ⟨-, goes⟩ | ⟨-, -, goes⟩ | ⟨-, -, complaint, -, goes⟩ |
    ⟨awake, few, allowed, goes⟩
  · refine .idle ?_ _ _ _ _ _ (congrArg Outcome.machine goes)
    unfold execution?
    rw [goes]
    rfl
  · refine .idle ?_ _ _ _ _ _ (congrArg Outcome.machine goes)
    unfold execution?
    rw [goes]
    rfl
  · refine .idle ?_ _ _ _ _ _
      ((congrArg Outcome.machine goes).trans (machine.begun.correct_machine complaint))
    unfold execution?
    rw [goes]
    change (checkErrors _).events.findSome? Event.executed? = none
    unfold checkErrors
    split <;> rfl
  · rcases machine.begun.advance_cases with ⟨fault, ends, faults⟩ | ⟨status, -, -, ends, -⟩
    · refine .faulted ?_ fault allowed ends ?_
      · have fetching : machine.begun.fetch.events.findSome? Event.executed? = none :=
          fetch_silent allowed
        unfold execution?
        rw [goes, faults, List.findSome?_append, fetching]
        exact machine.begun.loaded.perform_silent machine.begun.fetch.result
      · rw [goes, faults]
    · obtain ⟨execution, after⟩ := cycle_executes awake few allowed ends
      exact .executed status awake few allowed ends execution after

/-- The machine runs and has the word at its counter, which is in order. -/
structure Faces (machine : Machine) (word : Int) : Prop where
  awake : machine.halted = false
  few : machine.errors < haltThreshold
  allowed : isProgramAddress machine.counter = true
  found : wordAt machine.memory machine.counter = word

/-- A word that is executed is the one that the machine faces. -/
theorem faces_of_execution {word : Int} {status : Status}
    (execution : machine.execution? = some (word, status)) :
    machine.Faces word ∧ machine.begun.performed.result = .ok status := by
  cases machine.cycle_course with
  | idle silent =>
      rw [silent] at execution
      cases execution
  | faulted silent =>
      rw [silent] at execution
      cases execution
  | executed other awake few allowed ends executes =>
      rw [executes] at execution
      cases execution
      exact ⟨⟨awake, few, allowed, (machine.begun.fetch_word allowed).symm⟩, ends⟩

/-- A machine faces the first word of a program that it takes. -/
theorem load_faces (machine : Machine) {program : List UInt8} (long : 1 < program.length)
    (fits : program.length ≤ Memory.largestProgram) :
    (machine.load (some program)).machine.Faces
      (256 * program[0].toNat + program[1].toNat) := by
  have taken : (Request.load (some program)).renews = true :=
    (Request.renews_load_iff (some program)).mpr ⟨Nat.le_of_lt long, fits⟩
  have few : (0 : Int) < haltThreshold := by decide
  rw [machine.load_taken taken]
  exact ⟨rfl, few, rfl, @wordAt_withProgram machine.reset.memory program fits 0 long⟩

/-- An instruction is plain if it is always applied and leaves the memory, the counter, the counts and
the halt flag alone. -/
def Plain (instruction : Instruction) : Prop :=
  ∀ machine : Machine, ∃ after, machine.execute instruction = applied after ∧
    after.memory = machine.memory ∧ after.counter = machine.counter ∧
    after.errors = machine.errors ∧ after.halted = machine.halted

/-- A word whose instruction is applied is executed, and then the timers tick. -/
theorem Faces.applies {word : Int} (faces : machine.Faces word) {instruction : Instruction}
    (spells : Instruction.Spells word instruction) :
    ∃ memory : Memory, memory.bytes = machine.memory.bytes ∧ ∀ after,
      execute { machine.begun with
        memory := memory
        counter := machine.counter + 2
        last := word } instruction = applied after →
      after.errors < haltThreshold →
        machine.execution? = some (word, .applied) ∧ machine.cycle.machine = after.tick := by
  obtain ⟨memory, same, goes⟩ := cycle_word faces.awake faces.few faces.allowed faces.found
  rw [perform_spelled _ spells] at goes
  refine ⟨memory, same, fun after applies few => ?_⟩
  rw [applies] at goes
  obtain ⟨execution, ends⟩ := goes .applied rfl
  change machine.cycle.machine = after.tick.checkErrors.machine at ends
  have calm : after.tick.errors < haltThreshold := few
  rw [checkErrors_few calm] at ends
  exact ⟨execution, ends⟩

/-- A machine that faces a word of a plain instruction passes to the word behind it. -/
theorem Faces.pass {word : Int} (faces : machine.Faces word) {instruction : Instruction}
    (spells : Instruction.Spells word instruction) (plain : Plain instruction)
    (room : isProgramAddress (machine.counter + 2) = true) :
    machine.execution? = some (word, .applied) ∧
      machine.cycle.machine.Faces (wordAt machine.memory (machine.counter + 2)) ∧
      machine.cycle.machine.counter = machine.counter + 2 ∧
      ∃ memory : Memory, memory.bytes = machine.memory.bytes ∧
        machine.cycle.machine = (execute { machine.begun with
          memory := memory
          counter := machine.counter + 2
          last := word } instruction).machine.tick := by
  obtain ⟨memory, same, goes⟩ := faces.applies spells
  obtain ⟨after, applies, kept, counter, errors, halted⟩ := plain { machine.begun with
    memory := memory
    counter := machine.counter + 2
    last := word }
  have few : after.errors < haltThreshold := by
    rw [errors]
    exact faces.few
  obtain ⟨execution, ends⟩ := goes after applies few
  refine ⟨execution, ?_, ?_, memory, same, ?_⟩
  · rw [ends]
    refine ⟨halted.trans faces.awake, few, ?_, ?_⟩
    · change isProgramAddress after.counter = true
      rw [counter]
      exact room
    · change wordAt after.memory after.counter = _
      rw [kept, counter]
      exact wordAt_congr same _
  · rw [ends]
    exact counter
  · rw [ends, applies]
    rfl

end ChipEight.Machine
