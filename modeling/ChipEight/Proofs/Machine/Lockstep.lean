/-
This file compares machines that differ in their flag to redraw, in their random bytes or in their
keypads only. No program looks at the flag, nor at the random bytes until it asks for one, nor at the
keypad until it asks for a key. Any two machines with displays of one size are alike but for their random
bytes once they have loaded the same program.
-/

import ChipEight.Proofs.Machine.Execution
import ChipEight.Proofs.Machine.Invariant
import ChipEight.Proofs.Machine.Storage

namespace ChipEight

/-- The opcodes that ask for keys. -/
def Opcode.keyed : List Opcode := [.closing 0xe 0x9e, .closing 0xe 0xa1, .closing 0xf 0x0a]

namespace Machine

/-- A change of the parts of a machine that hardly anything looks at: of the random bytes, of the keypad,
and of the flag to redraw, which may be raised. -/
structure Alteration where
  bytes : RandomBytes → RandomBytes
  keys : Keypad → Keypad
  raised : Bool

/-- The change leaves alone what a word asks for. -/
structure Alteration.Spares (change : Alteration) (word : Int) : Prop where
  bytes : (Opcode.family 0xc).Covers word → change.bytes = id
  keys : Opcode.Listed Opcode.keyed word → change.keys = id

/-- The machine with its random bytes, its keypad and its flag to redraw changed. -/
def altered (machine : Machine) (change : Alteration) : Machine :=
  { machine with
    keypad := change.keys machine.keypad
    random := change.bytes machine.random
    redraw := machine.redraw || change.raised }

def Outcome.altered {A : Type} (outcome : Outcome A) (change : Alteration) : Outcome A :=
  ⟨outcome.machine.altered change, outcome.result, outcome.events⟩

variable {machine : Machine}

@[simp] theorem register_altered (machine : Machine) (change : Alteration) (place : Register) :
    (machine.altered change).register place = machine.register place := rfl

theorem skipIf_altered (machine : Machine) (change : Alteration) (condition : Bool) :
    (machine.altered change).skipIf condition =
      (machine.skipIf condition).altered change := by
  cases condition <;> rfl

theorem jump_altered (machine : Machine) (change : Alteration) (target : Address) :
    (machine.altered change).jump target = (machine.jump target).altered change := by
  unfold jump
  split <;> rfl

theorem jumpFrom_altered (machine : Machine) (change : Alteration) (base : Address) :
    (machine.altered change).jumpFrom base = (machine.jumpFrom base).altered change := by
  unfold jumpFrom
  simp only [register_altered]
  split
  case isTrue allowed => exact if_pos allowed
  case isFalse outside => exact if_neg outside

theorem call_altered (machine : Machine) (change : Alteration) (target : Address) :
    (machine.altered change).call target = (machine.call target).altered change := by
  unfold call
  split
  case isTrue => rfl
  dsimp only [altered]
  split
  case isTrue full => exact if_pos full
  case isFalse room =>
    refine (if_neg room).trans ?_
    cases Slice.index stackSize machine.depth .listPlace <;> rfl

theorem leave_altered (machine : Machine) (change : Alteration) :
    (machine.altered change).leave = machine.leave.altered change := by
  unfold leave
  dsimp only [altered]
  split
  case isTrue empty => exact if_pos empty
  case isFalse deep =>
    refine (if_neg deep).trans ?_
    cases Slice.index stackSize (machine.depth - 1) .listItem with
    | error fault => rfl
    | ok slot =>
        dsimp only
        split <;> rfl

theorem combine_altered (machine : Machine) (change : Alteration) (operation : Operation)
    (x y : Register) :
    (machine.altered change).combine operation x y =
      (machine.combine operation x y).altered change := by
  cases operation <;> rfl

theorem draw_altered (machine : Machine) (change : Alteration) (x y : Register)
    (rows : Fin 16) :
    (machine.altered change).draw x y rows = (machine.draw x y rows).altered change := by
  unfold draw
  split
  case isTrue => rfl
  simp only [register_altered]
  dsimp only [altered]
  split
  case isTrue beyond => exact if_pos beyond
  case isFalse inside =>
    refine (if_neg inside).trans ?_
    cases (machine.memory.readRange Display.tallestSprite machine.index rows.val).value with
    | error fault => rfl
    | ok bytes =>
        dsimp only
        cases machine.display.draw (machine.register x) (machine.register y) bytes <;> rfl

theorem skipKey_altered (machine : Machine) {change : Alteration} (spared : change.keys = id)
    (x : Register) (wanted : Bool) :
    (machine.altered change).skipKey x wanted =
      (machine.skipKey x wanted).altered change := by
  have same : (machine.altered change).keypad = machine.keypad := congrFun spared machine.keypad
  unfold skipKey
  simp only [register_altered, same]
  split
  · rfl
  · exact skipIf_altered machine change _

theorem awaitKey_altered (machine : Machine) {change : Alteration} (spared : change.keys = id)
    (x : Register) :
    (machine.altered change).awaitKey x = (machine.awaitKey x).altered change := by
  obtain ⟨bytes, keys, raised⟩ := change
  cases spared
  unfold awaitKey
  dsimp only [altered, id]
  cases machine.keypad.latch <;> rfl

theorem storeDigits_altered (machine : Machine) (change : Alteration) (x : Register) :
    (machine.altered change).storeDigits x = (machine.storeDigits x).altered change := by
  unfold storeDigits
  dsimp only [altered]
  split
  case isTrue beyond => exact if_pos beyond
  case isFalse inside => exact if_neg inside

theorem storeRegisters_altered (machine : Machine) (change : Alteration) (last : Register) :
    (machine.altered change).storeRegisters last =
      (machine.storeRegisters last).altered change := by
  unfold storeRegisters
  dsimp only [altered]
  split
  case isTrue beyond => exact if_pos beyond
  case isFalse inside => exact if_neg inside

theorem loadRegisters_altered (machine : Machine) (change : Alteration) (last : Register) :
    (machine.altered change).loadRegisters last =
      (machine.loadRegisters last).altered change := by
  unfold loadRegisters
  dsimp only [altered]
  split
  case isTrue beyond => exact if_pos beyond
  case isFalse inside => exact if_neg inside

/-- Only the words that ask for a random byte look at the random bytes, only those that ask for keys at
the keypad, and none at the flag to redraw. -/
theorem execute_altered (machine : Machine) {change : Alteration} {word : Int}
    (spared : change.Spares word) {instruction : Instruction}
    (spells : Instruction.Spells word instruction) :
    (machine.altered change).execute instruction =
      (machine.execute instruction).altered change := by
  cases spells with
  | leave => exact leave_altered machine change
  | jump => exact jump_altered machine change _
  | call => exact call_altered machine change _
  | skipEqual | skipUnequal | skipSame | skipDifferent => exact skipIf_altered machine change _
  | combine operation => exact congrArg applied (combine_altered machine change operation _ _)
  | jumpFrom => exact jumpFrom_altered machine change _
  | random asks =>
      obtain ⟨bytes, keys, raised⟩ := change
      cases spared.bytes asks
      rfl
  | draw => exact draw_altered machine change _ _ _
  | skipPressed asks => exact skipKey_altered machine (spared.keys (asks.listed (by decide))) _ true
  | skipReleased asks =>
      exact skipKey_altered machine (spared.keys (asks.listed (by decide))) _ false
  | awaitKey asks => exact awaitKey_altered machine (spared.keys (asks.listed (by decide))) _
  | storeDigits => exact storeDigits_altered machine change _
  | storeRegisters => exact storeRegisters_altered machine change _
  | loadRegisters => exact loadRegisters_altered machine change _
  | clearScreen | stop | callNative | put | add | setIndex | readDelay | setDelay | setSound
  | addIndex | findGlyph => rfl

/-- A word that asks for a random byte is always applied. -/
theorem perform_random (machine : Machine) {word : Int} (asks : (Opcode.family 0xc).Covers word) :
    (machine.perform word).result = .ok .applied := by
  rw [machine.perform_spelled (.random asks)]
  rfl

/-- A word that asks for keys never ends with a fault. -/
theorem perform_keyed (machine : Machine) {word : Int} (asks : Opcode.Listed Opcode.keyed word) :
    ∃ status, (machine.perform word).result = .ok status := by
  have skips (x : Register) (wanted : Bool) :
      ∃ status, (machine.skipKey x wanted).result = .ok status := by
    unfold skipKey
    dsimp only
    split
    · exact ⟨.ignored, rfl⟩
    · exact ⟨.applied, rfl⟩
  obtain ⟨opcode, member, covers⟩ := asks
  simp only [Opcode.keyed, List.mem_cons, List.not_mem_nil, or_false] at member
  rcases member with rfl | rfl | rfl
  · rw [machine.perform_spelled (.skipPressed covers)]
    exact skips _ _
  · rw [machine.perform_spelled (.skipReleased covers)]
    exact skips _ _
  · rw [machine.perform_spelled (.awaitKey covers)]
    change ∃ status, (machine.awaitKey _).result = .ok status
    unfold awaitKey
    split
    · exact ⟨.stalled, rfl⟩
    · exact ⟨.applied, rfl⟩

theorem perform_altered (machine : Machine) {change : Alteration} {word : Int}
    (spared : change.Spares word) :
    (machine.altered change).perform word = (machine.perform word).altered change := by
  rcases machine.perform_cases word with ⟨instruction, spells, goes⟩ | ⟨unspelled, goes⟩
  · rw [goes, (machine.altered change).perform_spelled spells]
    exact machine.execute_altered spared spells
  · rw [goes]
    rcases (machine.altered change).perform_cases word with
      ⟨instruction, spells, -⟩ | ⟨-, alike⟩
    · exact absurd spells (unspelled instruction)
    · rw [alike]
      rfl

theorem fetch_altered (machine : Machine) (change : Alteration) :
    (machine.altered change).fetch = machine.fetch.altered change := by
  unfold fetch
  dsimp only [altered]
  split
  case isTrue beyond => exact if_pos beyond
  case isFalse inside => exact if_neg inside

theorem checkErrors_altered (machine : Machine) (change : Alteration) :
    (machine.altered change).checkErrors = machine.checkErrors.altered change := by
  unfold checkErrors
  by_cases stops : (!machine.halted && decide (haltThreshold ≤ machine.errors)) = true
  · rw [if_pos stops]
    exact if_pos stops
  · rw [if_neg stops]
    exact if_neg stops

theorem performed_altered (machine : Machine) {change : Alteration}
    (spared : change.Spares machine.fetch.result) :
    (machine.altered change).performed = machine.performed.altered change := by
  unfold performed loaded
  rw [fetch_altered]
  exact machine.loaded.perform_altered spared

theorem advance_altered (machine : Machine) {change : Alteration}
    (spared : change.Spares machine.fetch.result) :
    (machine.altered change).advance = machine.advance.altered change := by
  have performs := machine.performed_altered spared
  have checks (after : Machine) :
      ((after.altered change).tick).checkErrors = after.tick.checkErrors.altered change :=
    after.tick.checkErrors_altered change
  unfold performed loaded at performs
  unfold advance
  rw [fetch_altered] at performs ⊢
  dsimp only [Outcome.altered] at performs checks ⊢
  rw [performs]
  cases (perform { machine.fetch.machine with last := machine.fetch.result } _).result with
  | error fault => rfl
  | ok status =>
      dsimp only
      rw [checks]
      rfl

theorem correct_altered (machine : Machine) (change : Alteration) (complaint : Complaint) :
    (machine.altered change).correct complaint =
      (machine.correct complaint).altered change := by
  let corrected := { machine.blame complaint with counter := machine.correctedCounter }
  have checks := corrected.checkErrors_altered change
  exact congrArg (fun checked : Outcome Unit => @Outcome.mk (Except Fault Unit) checked.machine
    (.ok ()) (.complaint complaint machine.position :: checked.events)) checks

/-- A cycle that is to ask for a random byte or for keys says so. -/
theorem spares_of_execution {change : Alteration} (awake : machine.halted = false)
    (few : machine.errors < haltThreshold) (allowed : isProgramAddress machine.counter = true)
    (spared : ∀ execution, machine.execution? = some execution → change.Spares execution.1) :
    change.Spares machine.begun.fetch.result where
  bytes asks :=
    have executes := cycle_executes awake few allowed (machine.begun.loaded.perform_random asks)
    (spared _ executes.1).bytes asks
  keys asks := by
    obtain ⟨status, ends⟩ := machine.begun.loaded.perform_keyed asks
    exact (spared _ (cycle_executes awake few allowed ends).1).keys asks

/-- Machines that differ only in what the word of a cycle does not ask for do the same in the cycle. -/
theorem cycle_altered (machine : Machine) {change : Alteration}
    (spared : ∀ execution, machine.execution? = some execution → change.Spares execution.1) :
    (machine.altered change).cycle = machine.cycle.altered change := by
  rcases machine.cycle_cases with ⟨stopped, goes⟩ | ⟨awake, many, goes⟩ |
    ⟨awake, few, complaint, found, goes⟩ | ⟨awake, few, allowed, goes⟩
  · rw [goes]
    exact if_pos stopped
  · have runs : ¬ machine.halted = true := Bool.eq_false_iff.mp awake
    rw [goes]
    exact (if_neg runs).trans (if_pos many)
  · rw [goes, ← correct_altered, (machine.altered change).cycle_awake awake few,
      show (machine.altered change).counterComplaint? = some complaint from found]
    rfl
  · have fine := (counterComplaint?_eq_none_iff machine).mpr allowed
    rw [goes, ← advance_altered _ (spares_of_execution awake few allowed spared),
      (machine.altered change).cycle_awake awake few,
      show (machine.altered change).counterComplaint? = none from fine]
    rfl

/-- Such machines also execute the same word in the cycle. -/
theorem execution_altered (machine : Machine) {change : Alteration}
    (spared : ∀ execution, machine.execution? = some execution → change.Spares execution.1) :
    (machine.altered change).execution? = machine.execution? := by
  unfold execution?
  rw [cycle_altered machine spared]
  rfl

/-- A load begins with a keypad of its own. -/
theorem load_altered (machine : Machine) {change : Alteration} (spared : change.keys = id)
    (program : Option (List UInt8)) :
    (machine.altered change).load program = (machine.load program).altered change := by
  unfold load
  dsimp only
  cases Memory.lengthNote? (program.getD []).length with
  | some note => rfl
  | none => simp only [Outcome.altered, altered, reset, fresh, Bool.true_or, spared, id]

/-- The machine with random bytes from another source. -/
def withRandom (machine : Machine) (random : RandomBytes) : Machine :=
  { machine with random := random }

def Outcome.withRandom {A : Type} (outcome : Outcome A) (random : RandomBytes) : Outcome A :=
  ⟨outcome.machine.withRandom random, outcome.result, outcome.events⟩

/-- Other random bytes are an alteration that leaves the flag to redraw. -/
theorem withRandom_eq_altered (machine : Machine) (random : RandomBytes) :
    machine.withRandom random = machine.altered ⟨fun _ => random, id, false⟩ := by
  unfold withRandom altered
  rw [Bool.or_false]
  rfl

theorem Outcome.withRandom_eq_altered {A : Type} (outcome : Outcome A) (random : RandomBytes) :
    outcome.withRandom random = outcome.altered ⟨fun _ => random, id, false⟩ :=
  congrArg (fun machine => Outcome.mk machine outcome.result outcome.events)
    (Machine.withRandom_eq_altered outcome.machine random)

/-- Other random bytes leave alone a word that asks for none. -/
theorem withRandom_spares (random : RandomBytes)
    (settled : ∀ execution, machine.execution? = some execution →
      ¬ (Opcode.family 0xc).Covers execution.1) :
    ∀ execution, machine.execution? = some execution →
      Alteration.Spares ⟨fun _ => random, id, false⟩ execution.1 :=
  fun execution found => ⟨fun asks => absurd asks (settled execution found), fun _ => rfl⟩

theorem cycle_withRandom (machine : Machine) (random : RandomBytes)
    (settled : ∀ execution, machine.execution? = some execution →
      ¬ (Opcode.family 0xc).Covers execution.1) :
    (machine.withRandom random).cycle = machine.cycle.withRandom random := by
  rw [withRandom_eq_altered, Outcome.withRandom_eq_altered]
  exact cycle_altered machine (withRandom_spares random settled)

theorem execution_withRandom (machine : Machine) (random : RandomBytes)
    (settled : ∀ execution, machine.execution? = some execution →
      ¬ (Opcode.family 0xc).Covers execution.1) :
    (machine.withRandom random).execution? = machine.execution? := by
  rw [withRandom_eq_altered]
  exact execution_altered machine (withRandom_spares random settled)

/-- The words that are executed during some requests, and how they end. -/
def executions (machine : Machine) : List Request → List (Int × Status)
  | [] => []
  | request :: rest =>
      (if request = .cycle then machine.execution?.toList else []) ++
        (machine.serve request).machine.executions rest

theorem executions_append (machine : Machine) (first second : List Request) :
    machine.executions (first ++ second) =
      machine.executions first ++ (machine.serveAll first).executions second := by
  induction first generalizing machine with
  | nil => rfl
  | cons request rest ih =>
      change _ ++ (machine.serve request).machine.executions (rest ++ second) = _
      rw [ih, ← List.append_assoc]
      rfl

/-- No word that is executed during the requests asks for a random byte. -/
def Settled (machine : Machine) (requests : List Request) : Prop :=
  ∀ execution ∈ machine.executions requests, ¬ (Opcode.family 0xc).Covers execution.1

theorem Settled.cycle {rest : List Request} (settled : machine.Settled (.cycle :: rest)) :
    ∀ execution, machine.execution? = some execution →
      ¬ (Opcode.family 0xc).Covers execution.1 := by
  intro execution found
  apply settled
  unfold executions
  rw [if_pos rfl, found]
  exact List.mem_append_left _ (List.mem_singleton_self _)

theorem Settled.rest {request : Request} {rest : List Request}
    (settled : machine.Settled (request :: rest)) : (machine.serve request).machine.Settled rest :=
  fun execution member => settled execution (List.mem_append_right _ member)

theorem load_withRandom (machine : Machine) (random : RandomBytes)
    (program : Option (List UInt8)) :
    (machine.withRandom random).load program = (machine.load program).withRandom random := by
  rw [withRandom_eq_altered, Outcome.withRandom_eq_altered]
  exact load_altered machine rfl program

theorem serve_withRandom (machine : Machine) (random : RandomBytes) {request : Request}
    {rest : List Request} (settled : machine.Settled (request :: rest)) :
    (machine.withRandom random).serve request = (machine.serve request).withRandom random := by
  cases request with
  | load program =>
      change Outcome.mk ((machine.withRandom random).load program).machine _
        ((machine.withRandom random).load program).events = _
      rw [load_withRandom]
      rfl
  | reset => rfl
  | press code => rfl
  | release code => rfl
  | cycle => exact machine.cycle_withRandom random settled.cycle

/-- Machines that differ in their random bytes only go on alike as long as no program asks for one:
the same happens to them, and they execute the same words. -/
theorem serveAll_withRandom (machine : Machine) (random : RandomBytes) {requests : List Request}
    (settled : machine.Settled requests) :
    (machine.withRandom random).serveAll requests =
        (machine.serveAll requests).withRandom random ∧
      (machine.withRandom random).happenings requests = machine.happenings requests ∧
      (machine.withRandom random).executions requests = machine.executions requests := by
  induction requests generalizing machine with
  | nil => exact ⟨rfl, rfl, rfl⟩
  | cons request rest ih =>
      obtain ⟨after, happen, execute⟩ := ih _ settled.rest
      have served := machine.serve_withRandom random settled
      have first : (if request = .cycle then (machine.withRandom random).execution?.toList else []) =
          if request = .cycle then machine.execution?.toList else [] := by
        split
        case isTrue cycles =>
          subst cycles
          rw [machine.execution_withRandom random settled.cycle]
        case isFalse => rfl
      unfold serveAll happenings executions
      rw [served, first]
      exact ⟨after, congrArg _ happen, congrArg _ execute⟩

theorem serveAll_zones (machine : Machine) (requests : List Request) :
    (machine.serveAll requests).memory.zones = machine.memory.zones :=
  @serveAll_keeps (fun after => after.memory.zones = machine.memory.zones)
    (fun after request same => (after.serve_zones request).trans same) machine requests rfl

/-- After a reset nothing is left of a machine but its random bytes, its zones and the size of its
display. -/
theorem reset_forgets {first second : Machine} (zones : first.memory.zones = second.memory.zones)
    (size : first.display.SameSize second.display) :
    second.reset = first.reset.withRandom second.random := by
  have memory : first.memory.reset = second.memory.reset := by
    unfold Memory.reset Memory.clear
    rw [zones]
  have display : first.display.clear = second.display.clear := by
    unfold Display.clear
    rw [size.1, size.2]
  unfold reset
  rw [memory, display]
  rfl

/-- Whatever two machines were asked before, with displays of one size: a program that is taken leaves
them alike in all but their random bytes. They then stay alike through all common requests that
execute no word that asks for a random byte. -/
theorem load_forgets (display other : Display) (random source : RandomBytes)
    (past history : List Request) (program : List UInt8) :
    let first := (Machine.new display random).serveAll past
    let second := (Machine.new other source).serveAll history
    first.display.SameSize second.display → 1 ≤ program.length → program.length ≤ 3584 →
      let one := first.load (some program)
      let two := second.load (some program)
      one.result = true ∧ two.result = true ∧
      two.machine = { one.machine with random := second.random } ∧
      ∀ later, (∀ execution ∈ one.machine.executions later,
          ¬ (Opcode.family 0xc).Covers execution.1) →
        two.machine.serveAll later =
            { one.machine.serveAll later with random := second.random } ∧
          two.machine.happenings later = one.machine.happenings later ∧
          two.machine.executions later = one.machine.executions later := by
  intro first second size filled fits one two
  have taken : (Request.load (some program)).renews = true :=
    (Request.renews_load_iff (some program)).mpr ⟨filled, fits⟩
  have zones : first.memory.zones = second.memory.zones :=
    (serveAll_zones _ past).trans (serveAll_zones (Machine.new other source) history).symm
  have alike : two.machine = one.machine.withRandom second.random := by
    change (second.load _).machine = (first.load _).machine.withRandom _
    rw [load_taken _ taken, load_taken _ taken, reset_forgets zones size]
    dsimp only [withRandom]
  refine ⟨(load_result _ _).trans taken, (load_result _ _).trans taken, alike, ?_⟩
  intro later settled
  rw [alike]
  exact serveAll_withRandom one.machine second.random settled

/-- A program that jumps to its start goes there, whatever key is pressed before. -/
theorem executions_jump (faces : machine.Faces 0x1200) :
    machine.executions [.press 5, .cycle] = [(0x1200, .applied)] := by
  obtain ⟨_, -, runs⟩ :=
    @cycle_word (machine.press 5) faces.awake faces.few faces.allowed _ faces.found
  obtain ⟨execution, -⟩ := runs .applied rfl
  change (machine.press 5).execution?.toList ++ [] = _
  rw [execution]
  rfl

theorem new_serveAll_sameSize (display : Display) (random : RandomBytes) (wide : 0 < display.width)
    (high : 0 < display.height) (requests : List Request) :
    ((Machine.new display random).serveAll requests).display.SameSize display :=
  (serveAll_orderly (fresh_wellFormed _ _ _ wide high) requests).2

/-- A machine that has run and a new one with other random bytes take a program and execute it alike. -/
theorem load_forgets_jump :
    let first := (Machine.new (.blank 8 4) (.ofSeed 12345)).serveAll
      [.load (some [0xc0, 0xff]), .press 3, .cycle]
    let second := (Machine.new (.blank 8 4) (.ofSeed 7)).serveAll [.reset]
    first.display.SameSize second.display ∧
      (second.load (some [0x12, 0x00])).machine =
        { (first.load (some [0x12, 0x00])).machine with random := second.random } ∧
      (second.load (some [0x12, 0x00])).machine.executions [.press 5, .cycle] =
        [(0x1200, .applied)] := by
  have size := (new_serveAll_sameSize (.blank 8 4) (.ofSeed 12345) (by decide) (by decide)
    [.load (some [0xc0, 0xff]), .press 3, .cycle])
  have other := (new_serveAll_sameSize (.blank 8 4) (.ofSeed 7) (by decide) (by decide) [.reset])
  have same := size.trans ⟨other.1.symm, other.2.symm⟩
  obtain ⟨-, -, alike, go⟩ := load_forgets (.blank 8 4) (.blank 8 4) (.ofSeed 12345) (.ofSeed 7)
    [.load (some [0xc0, 0xff]), .press 3, .cycle] [.reset] [0x12, 0x00] same (by decide) (by decide)
  have executes := executions_jump (@load_faces ((Machine.new (.blank 8 4) (.ofSeed 12345)).serveAll
    [.load (some [0xc0, 0xff]), .press 3, .cycle]) [0x12, 0x00] (by decide) (by decide))
  have settled : ∀ execution ∈ [((0x1200 : Int), Status.applied)],
      ¬ (Opcode.family 0xc).Covers execution.1 := by
    decide
  rw [← executes] at settled
  exact ⟨same, alike, (go _ settled).2.2.trans executes⟩

end Machine

end ChipEight
