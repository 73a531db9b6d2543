/-
This file follows the wait for a key. The latch holds the key that was pressed last since a wait took
one or the machine began anew, so no press ends two waits, and a wait without a press leaves the
program where it is.
-/

import ChipEight.Proofs.Keypad.EventLog
import ChipEight.Proofs.Machine.Execution
import ChipEight.Proofs.Machine.Frame

namespace ChipEight

/-- A word that waits for a key. -/
def Waits (word : Int) : Prop :=
  (Opcode.closing 0xf 0x0a).Covers word

instance (word : Int) : Decidable (Waits word) :=
  inferInstanceAs (Decidable ((Opcode.closing 0xf 0x0a).Covers word))

namespace Request

/-- The keys that a request presses: one at most, and none for a code of no key. -/
def pressed : Request → List (Fin 16)
  | press code => (Keypad.key? code).toList
  | _ => []

/-- A request that only lets a key go, or presses a key that does not exist. -/
def IsFaint : Request → Prop
  | press code => Keypad.key? code = none
  | release _ => True
  | _ => False

end Request

namespace Machine

/-- A wait that is completed takes a key. -/
def takesKey : Option (Int × Status) → Bool
  | none => false
  | some (word, status) => Waits word && status = .applied

/-- The keys pressed since a wait was completed or the machine began anew, oldest first, after one more
request. -/
def keysAfter (machine : Machine) (keys : List (Fin 16)) : Request → List (Fin 16)
  | .cycle => if takesKey machine.execution? then [] else keys
  | request => if request.renews then [] else keys ++ request.pressed

/-- The keys pressed since a wait was completed or the machine began anew, after some requests. -/
def freshKeys (machine : Machine) (keys : List (Fin 16)) : List Request → List (Fin 16)
  | [] => keys
  | request :: rest => (machine.serve request).machine.freshKeys (machine.keysAfter keys request) rest

variable {machine : Machine} {word : Int}

/-- Where no key is pressed there is none that was. -/
theorem freshKeys_nil (machine : Machine) {requests : List Request}
    (idle : ∀ request ∈ requests, request.pressed = []) : machine.freshKeys [] requests = [] := by
  induction requests generalizing machine with
  | nil => rfl
  | cons request rest ih =>
      have first : machine.keysAfter [] request = [] := by
        unfold keysAfter
        split
        · exact ite_self _
        · rw [idle request List.mem_cons_self]
          exact ite_self _
      change (machine.serve request).machine.freshKeys (machine.keysAfter [] request) rest = []
      rw [first]
      exact ih _ fun later member => idle later (List.mem_cons_of_mem _ member)

/-- The latch is emptied by a wait that is completed, and left alone by all else that words do. -/
theorem perform_latch (machine : Machine) (word : Int) :
    let performed := machine.perform word
    (Waits word ∧ performed.result = .ok .applied ∧ performed.machine.keypad.latch = none) ∨
    (¬ (Waits word ∧ performed.result = .ok .applied) ∧
      performed.machine.keypad.latch = machine.keypad.latch) := by
  intro performed
  by_cases waits : Waits word
  · have goes : performed = machine.awaitKey (Instruction.xOf word) :=
      machine.perform_spelled (.awaitKey waits)
    rw [goes]
    unfold awaitKey
    split
    case h_1 => exact .inr ⟨fun both => (nomatch both.2), rfl⟩
    case h_2 => exact .inl ⟨waits, rfl, rfl⟩
  · exact .inr ⟨fun both => waits both.1, (machine.perform_confined word).latch waits⟩

theorem loaded_keypad (machine : Machine) : machine.loaded.keypad = machine.keypad := by
  unfold loaded fetch
  split <;> rfl

theorem takesKey_iff (word : Int) (status : Status) :
    takesKey (some (word, status)) = true ↔ Waits word ∧ status = .applied := by
  simp [takesKey]

theorem cycle_latch (machine : Machine) :
    machine.cycle.machine.keypad.latch =
      if takesKey machine.execution? then none else machine.keypad.latch := by
  have latch := machine.begun.loaded.perform_latch machine.begun.fetch.result
  rw [loaded_keypad] at latch
  cases machine.cycle_course with
  | idle silent _ _ _ _ _ after =>
      rw [silent, after]
      rfl
  | faulted silent fault _ ends after =>
      rw [silent, after]
      rcases latch with ⟨-, taken, -⟩ | ⟨-, same⟩
      · exact nomatch ends.symm.trans taken
      · exact same
  | executed status _ _ _ ends execution after =>
      rw [execution, after, checkErrors_machine]
      rcases latch with ⟨waits, taken, empty⟩ | ⟨untaken, same⟩
      · have applied : status = .applied := Except.ok.inj (ends.symm.trans taken)
        rw [if_pos ((takesKey_iff _ _).mpr ⟨waits, applied⟩)]
        exact empty
      · rw [if_neg]
        · exact same
        · intro takes
          obtain ⟨waits, rfl⟩ := (takesKey_iff _ _).mp takes
          exact untaken ⟨waits, ends⟩

/-- The latch holds the key that was pressed last. -/
theorem serve_latch {keys : List (Fin 16)} (held : machine.keypad.latch = keys.getLast?)
    (request : Request) :
    (machine.serve request).machine.keypad.latch = (machine.keysAfter keys request).getLast? := by
  cases request with
  | load program =>
      change (machine.load program).machine.keypad.latch = (if _ then _ else _ : List _).getLast?
      split
      case isTrue renewing =>
        rw [machine.load_taken renewing]
        rfl
      case isFalse steady =>
        rw [machine.load_refused (by simpa using steady)]
        exact held.trans (congrArg List.getLast? (List.append_nil keys).symm)
  | reset => rfl
  | press code =>
      change (machine.keypad.press code).latch = (keys ++ (Keypad.key? code).toList).getLast?
      rw [Keypad.press_latch, held, List.getLast?_append]
      cases Keypad.key? code <;> rfl
  | release code =>
      change (machine.keypad.release code).latch = (keys ++ []).getLast?
      rw [List.append_nil, ← held, Keypad.release_latch]
  | cycle =>
      change machine.cycle.machine.keypad.latch = (if _ then _ else _ : List _).getLast?
      rw [cycle_latch]
      split
      · rfl
      · exact held

theorem serveAll_latch {keys : List (Fin 16)} (held : machine.keypad.latch = keys.getLast?)
    (requests : List Request) :
    (machine.serveAll requests).keypad.latch = (machine.freshKeys keys requests).getLast? := by
  induction requests generalizing machine keys with
  | nil => exact held
  | cons request rest ih => exact ih (serve_latch held request)

/-- The memory after a word is fetched from it. -/
def fetched (memory : Memory) (place : Int) : Memory :=
  ((memory.read place).memory.read (place + 1)).memory

/-- The machine after a cycle that does nothing: the cycle and its word are counted and noted, and the
timers tick. -/
def idled (machine : Machine) (word : Int) : Machine :=
  tick { machine with
    memory := fetched machine.memory machine.counter
    cycles := machine.cycles + 1
    last := word }

/-- The machine after a cycle that executes a wait. -/
def waited (machine : Machine) (word : Int) : Machine :=
  match machine.keypad.latch with
  | none => machine.idled word
  | some key => { (machine.idled word).setRegister (Instruction.xOf word) key.val with
      counter := machine.counter + 2
      keypad := machine.keypad.takeLatch }

theorem fetched_sameContents (memory : Memory) (place : Int) :
    (fetched memory place).SameContents memory :=
  ((memory.read place).memory.read_sameContents (place + 1)).trans (memory.read_sameContents place)

theorem loaded_fetched (allowed : isProgramAddress machine.counter = true) :
    machine.loaded = { machine with
      memory := fetched machine.memory machine.counter
      counter := machine.counter + 2
      last := wordAt machine.memory machine.counter } := by
  obtain ⟨low, high, even⟩ := (isProgramAddress_iff _).mp allowed
  have room : ¬ (Memory.size : Int) ≤ machine.counter + 1 := by simp only [Memory.size]; omega
  unfold loaded
  rw [machine.fetch_word allowed]
  unfold fetch
  rw [if_neg room]
  rfl

theorem awaitKey_empty (empty : machine.keypad.latch = none) (x : Register) :
    machine.awaitKey x = ⟨{ machine with counter := machine.counter - 2 }, .ok .stalled, []⟩ := by
  unfold awaitKey
  rw [empty]

theorem awaitKey_latched {key : Fin 16} (latched : machine.keypad.latch = some key) (x : Register) :
    machine.awaitKey x =
      applied { machine.setRegister x key.val with keypad := machine.keypad.takeLatch } := by
  unfold awaitKey
  rw [latched]

/-- A machine that faces a wait executes it, and the wait is completed if a key is latched. -/
theorem cycle_waits (faces : machine.Faces word) (waits : Waits word) :
    machine.execution? = some (word, if machine.keypad.latch = none then .stalled else .applied) ∧
      machine.cycle.machine = machine.waited word := by
  obtain ⟨awake, few, allowed, found⟩ := faces
  have facing : machine.begun.fetch.result = word := (machine.begun.fetch_word allowed).trans found
  have loads := loaded_fetched (show isProgramAddress machine.begun.counter = true from allowed)
  have performs : machine.begun.performed = machine.begun.loaded.awaitKey (Instruction.xOf word) := by
    unfold performed
    rw [facing]
    exact machine.begun.loaded.perform_spelled (.awaitKey waits)
  cases latch : machine.keypad.latch with
  | none =>
      rw [awaitKey_empty (by rw [loaded_keypad]; exact latch)] at performs
      obtain ⟨execution, after⟩ := cycle_executes awake few allowed
        (congrArg Outcome.result performs)
      rw [facing] at execution
      refine ⟨execution, ?_⟩
      have stays : machine.begun.counter + 2 - 2 = machine.counter := Int.add_sub_cancel ..
      rw [after, checkErrors_few (by rw [performs, loads]; exact few), performs, loads]
      dsimp only
      rw [stays, show wordAt machine.begun.memory machine.begun.counter = word from found]
      unfold waited
      rw [latch]
      rfl
  | some key =>
      rw [awaitKey_latched (by rw [loaded_keypad]; exact latch)] at performs
      obtain ⟨execution, after⟩ := cycle_executes awake few allowed
        (congrArg Outcome.result performs)
      rw [facing] at execution
      refine ⟨execution, ?_⟩
      rw [after, checkErrors_few (by rw [performs, loads]; exact few), performs, loads,
        show wordAt machine.begun.memory machine.begun.counter = word from found]
      unfold waited
      rw [latch]
      rfl

/-- A wait that is executed ends as the latch says. -/
theorem cycle_waited {status : Status} (execution : machine.execution? = some (word, status))
    (waits : Waits word) :
    status = (if machine.keypad.latch = none then .stalled else .applied) ∧
      machine.cycle.machine = machine.waited word := by
  obtain ⟨faces, -⟩ := faces_of_execution execution
  obtain ⟨executes, after⟩ := cycle_waits faces waits
  rw [execution] at executes
  cases executes
  exact ⟨rfl, after⟩

/-- Letting keys go and pressing keys that do not exist changes which keys are down at most. -/
theorem serveAll_faint (machine : Machine) {requests : List Request}
    (faint : ∀ request ∈ requests, request.IsFaint) :
    ∃ down, machine.serveAll requests =
      { machine with keypad := ⟨down, machine.keypad.latch⟩ } := by
  induction requests generalizing machine with
  | nil => exact ⟨machine.keypad.down, rfl⟩
  | cons request rest ih =>
      have first : ∃ down, (machine.serve request).machine =
          { machine with keypad := ⟨down, machine.keypad.latch⟩ } := by
        cases request with
        | press code =>
            have missing : Keypad.key? code = none := faint _ List.mem_cons_self
            change ∃ down, machine.press code = _
            unfold press Keypad.press
            rw [missing]
            exact ⟨machine.keypad.down, rfl⟩
        | release code =>
            change ∃ down, machine.release code = _
            unfold release Keypad.release
            split
            · exact ⟨_, rfl⟩
            · exact ⟨machine.keypad.down, rfl⟩
        | load | reset | cycle => exact (faint _ List.mem_cons_self).elim
      obtain ⟨down, goes⟩ := first
      rw [serveAll_cons, goes]
      exact ih _ fun later member => faint later (List.mem_cons_of_mem _ member)

/-- Of the keypad a wait looks at the latch only. -/
theorem waited_down (machine : Machine) (word : Int) (down : Vector Bool 16) :
    waited { machine with keypad := ⟨down, machine.keypad.latch⟩ } word =
      { machine.waited word with keypad := ⟨down, (machine.waited word).keypad.latch⟩ } := by
  unfold waited
  cases latch : machine.keypad.latch with
  | none => simp only [idled, tick, latch]
  | some key => rfl

/-- How a wait is served where these keys were pressed, oldest first, since a wait was completed or the
machine began anew. -/
structure ServesWait (machine : Machine) (keys : List (Fin 16)) (word : Int) (status : Status) :
    Prop where
  completes : status = .applied ↔ keys ≠ []
  stores : status = .applied → ∃ key, keys.getLast? = some key ∧
    machine.cycle.machine.register (Instruction.xOf word) = key.val ∧
    machine.cycle.machine.counter = machine.counter + 2
  spent : status = .applied → ∀ later, (∀ request ∈ later, request.pressed = []) →
    ∀ other ended, Waits other →
      (machine.cycle.machine.serveAll later).execution? = some (other, ended) → ended = .stalled
  stalls : status ≠ .applied → status = .stalled ∧
    ∃ memory : Memory, memory.SameContents machine.memory ∧
      machine.cycle.machine = tick { machine with
        memory := memory
        cycles := machine.cycles + 1
        last := word }
  undisturbed : ∀ between, (∀ request ∈ between, request.IsFaint) →
    (machine.serveAll between).execution? = some (word, status) ∧
      ∃ down, (machine.serveAll between).cycle.machine =
        { machine.cycle.machine with keypad := ⟨down, machine.cycle.machine.keypad.latch⟩ }

/-- Two machines that differ in the keys that are down serve a wait alike. -/
theorem cycle_waits_down {status : Status} (execution : machine.execution? = some (word, status))
    (waits : Waits word) (down : Vector Bool 16) :
    let other := { machine with keypad := ⟨down, machine.keypad.latch⟩ }
    other.execution? = some (word, status) ∧ other.cycle.machine =
      { machine.cycle.machine with keypad := ⟨down, machine.cycle.machine.keypad.latch⟩ } := by
  intro other
  obtain ⟨faces, -⟩ := faces_of_execution execution
  have alike : other.Faces word := ⟨faces.awake, faces.few, faces.allowed, faces.found⟩
  obtain ⟨executes, after⟩ := cycle_waits alike waits
  obtain ⟨ends, goes⟩ := cycle_waited execution waits
  rw [executes, after, ends, goes]
  exact ⟨rfl, machine.waited_down word down⟩

/-- Once a wait is completed, no other is before a key is pressed. -/
theorem cycle_spent {status : Status} (taken : machine.cycle.machine.keypad.latch = none)
    {later : List Request} (idle : ∀ request ∈ later, request.pressed = [])
    (execution : (machine.cycle.machine.serveAll later).execution? = some (word, status))
    (waits : Waits word) : status = .stalled := by
  have held := @serveAll_latch machine.cycle.machine [] taken later
  rw [freshKeys_nil _ idle] at held
  obtain ⟨ends, -⟩ := cycle_waited execution waits
  exact ends.trans (if_pos held)

theorem servesWait_of_latch {keys : List (Fin 16)} (held : machine.keypad.latch = keys.getLast?)
    {status : Status} (execution : machine.execution? = some (word, status))
    (waits : Waits word) : machine.ServesWait keys word status := by
  obtain ⟨ends, after⟩ := cycle_waited execution waits
  have undisturbed : ∀ between, (∀ request ∈ between, request.IsFaint) →
      (machine.serveAll between).execution? = some (word, status) ∧
        ∃ down, (machine.serveAll between).cycle.machine =
          { machine.cycle.machine with keypad := ⟨down, machine.cycle.machine.keypad.latch⟩ } := by
    intro between faint
    obtain ⟨down, goes⟩ := machine.serveAll_faint faint
    obtain ⟨executes, reaches⟩ := cycle_waits_down execution waits down
    rw [goes]
    exact ⟨executes, down, reaches⟩
  unfold waited at after
  cases latch : machine.keypad.latch with
  | none =>
      rw [latch] at ends after held
      have empty : keys = [] := List.getLast?_eq_none_iff.mp held.symm
      refine ⟨by simp [ends, empty], ?_, ?_, ?_, undisturbed⟩
      · intro completed
        exact nomatch ends.symm.trans completed
      · intro completed
        exact nomatch ends.symm.trans completed
      · intro _
        exact ⟨ends, _, fetched_sameContents _ _, after⟩
  | some key =>
      rw [latch] at ends after held
      have pressed : keys ≠ [] := by
        rintro rfl
        cases held
      refine ⟨by simp [ends, pressed], ?_, ?_, ?_, undisturbed⟩
      · intro _
        refine ⟨key, held.symm, ?_⟩
        rw [after]
        exact ⟨(register_setRegister _ _ _ _).trans (if_pos rfl), rfl⟩
      · intro _ later idle other ended awaits executes
        exact cycle_spent (by rw [after]; rfl) idle executes awaits
      · intro incomplete
        exact absurd ends incomplete

/-- The wait for a key in every run of a new machine. Of the words at its counter a machine that runs
executes each that waits. -/
theorem waits_served (display : Display) (random : RandomBytes) (requests : List Request)
    {word : Int} (waits : Waits word) :
    let start := Machine.new display random
    let machine := start.serveAll requests
    (machine.Faces word ↔ ∃ status, machine.execution? = some (word, status)) ∧
    ∀ status, machine.execution? = some (word, status) →
      machine.ServesWait (start.freshKeys [] requests) word status := by
  intro start machine
  have held : machine.keypad.latch = (start.freshKeys [] requests).getLast? :=
    @serveAll_latch start [] rfl requests
  refine ⟨⟨?_, ?_⟩, ?_⟩
  · intro faces
    exact ⟨_, (cycle_waits faces waits).1⟩
  · rintro ⟨status, execution⟩
    exact (faces_of_execution execution).1
  · intro status execution
    exact servesWait_of_latch held execution waits

/-- A key that is pressed and let go before the program waits for it ends the wait, whatever other codes
come in between. -/
theorem waits_served_press :
    let start := Machine.new (.blank 8 4) (.ofSeed 12345)
    let requests := [.load (some [0xf3, 0x0a]), .press 4, .press 7, .release 7, .press 20]
    let machine := start.serveAll requests
    Waits 0xf30a ∧ machine.execution? = some (0xf30a, .applied) ∧
      machine.cycle.machine.register 3 = 7 := by
  intro start requests machine
  have waits : Waits 0xf30a := by decide
  have found : wordAt machine.memory 0x200 = 0xf30a :=
    @wordAt_withProgram start.reset.memory [0xf3, 0x0a] (by decide) 0 (by decide)
  have faces : machine.Faces 0xf30a := ⟨rfl, by decide, rfl, found⟩
  obtain ⟨execution, -⟩ := cycle_waits faces waits
  obtain ⟨-, served⟩ := waits_served (.blank 8 4) (.ofSeed 12345) requests waits
  obtain ⟨key, last, stored, -⟩ := (served .applied execution).stores rfl
  have pressed : start.freshKeys [] requests = [4, 7] := rfl
  refine ⟨waits, execution, ?_⟩
  rw [pressed] at last
  cases last
  exact stored

end Machine

end ChipEight
