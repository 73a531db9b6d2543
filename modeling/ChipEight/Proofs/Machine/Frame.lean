/-
This file says what a word may change. Each part of a machine is left alone by all opcodes but the few
that name it, and where an opcode names registers or addresses, by all others of them.
-/

import ChipEight.Proofs.Machine.Decoding
import ChipEight.Proofs.Machine.Rejection
import ChipEight.Proofs.Memory.Access

namespace ChipEight

namespace Opcode

/-- The opcodes that write the register that they name first. -/
def intoRegister : List Opcode := [
  .family 0x6, .family 0x7,
  .ending 0x8 0x0, .ending 0x8 0x1, .ending 0x8 0x2, .ending 0x8 0x3, .ending 0x8 0x4,
  .ending 0x8 0x5, .ending 0x8 0x6, .ending 0x8 0x7, .ending 0x8 0xe,
  .family 0xc, .closing 0xf 0x07, .closing 0xf 0x0a]

/-- The opcodes that write the flag register, whatever they name. -/
def intoFlag : List Opcode := [
  .ending 0x8 0x4, .ending 0x8 0x5, .ending 0x8 0x6, .ending 0x8 0x7, .ending 0x8 0xe, .family 0xd]

/-- The first digits of the words that compare. -/
def comparing : List Nat := [0x3, 0x4, 0x5, 0x9, 0xe]

/-- The opcodes that set the counter. -/
def jumps : List Opcode := [.family 0x1, .family 0x2, .family 0xb, .whole 0x00ee]

/-- The opcodes that set the index. -/
def indexing : List Opcode := [.family 0xa, .closing 0xf 0x1e, .closing 0xf 0x29]

/-- The opcodes that read or write the memory. -/
def accessing : List Opcode := [.family 0xd, .closing 0xf 0x33, .closing 0xf 0x55, .closing 0xf 0x65]

end Opcode

namespace Machine

open Opcode

/-- The registers that a word may write. -/
def Names (word : Int) (place : Register) : Prop :=
  (Listed intoRegister word ∧ place = Instruction.xOf word) ∨
  (Listed intoFlag word ∧ place = flagRegister) ∨
  ((closing 0xf 0x65).Covers word ∧ place ≤ Instruction.xOf word)

instance (word : Int) (place : Register) : Decidable (Names word place) :=
  inferInstanceAs (Decidable (_ ∨ _ ∨ _))

/-- The addresses that a word may store bytes at. -/
def Stores (machine : Machine) (word place : Int) : Prop :=
  machine.index ≤ place ∧
    ((closing 0xf 0x33).Covers word ∧ place ≤ machine.index + 2 ∨
      (closing 0xf 0x55).Covers word ∧ place ≤ machine.index + (Instruction.xOf word).val)

/-- The comparison that a word makes comes out so that the next instruction is passed over. -/
def Skips (machine : Machine) (word : Int) : Prop :=
  let first := machine.register (Instruction.xOf word)
  let second := machine.register (Instruction.yOf word)
  (family 0x3).Covers word ∧ first = (Instruction.lowByte word).val ∨
  (family 0x4).Covers word ∧ first ≠ (Instruction.lowByte word).val ∨
  (family 0x5).Covers word ∧ first = second ∨
  (family 0x9).Covers word ∧ first ≠ second ∨
  (closing 0xe 0x9e).Covers word ∧ first ≤ 15 ∧ machine.keypad.isDown first = true ∨
  (closing 0xe 0xa1).Covers word ∧ first ≤ 15 ∧ machine.keypad.isDown first = false

/-- From the machine to the one after the word each part is left alone that the opcode of the word
does not name. What the word counts as a complaint is left out here. -/
structure Confined (machine : Machine) (word : Int) (after : Machine) : Prop where
  registers : ∀ place, ¬ Names word place → after.register place = machine.register place
  index : ¬ Listed indexing word → after.index = machine.index
  stack : ¬ Listed [.family 0x2, .whole 0x00ee] word →
    after.depth = machine.depth ∧ after.stack = machine.stack
  counter : ¬ Listed jumps word → ¬ (closing 0xf 0x0a).Covers word → ¬ machine.Skips word →
    after.counter = machine.counter
  skip : machine.Skips word → after.counter = machine.counter + 2
  delay : ¬ (closing 0xf 0x15).Covers word → after.delay = machine.delay
  sound : ¬ (closing 0xf 0x18).Covers word → after.sound = machine.sound
  bytes : ∀ place, ¬ machine.Stores word place →
    after.memory.byteAt place = machine.memory.byteAt place
  zones : after.memory.zones = machine.memory.zones
  accesses : ¬ Listed accessing word → after.memory.accesses = machine.memory.accesses
  screen : ¬ Listed [.whole 0x00e0, .family 0xd] word →
    after.display = machine.display ∧ after.redraw = machine.redraw
  held : after.keypad.down = machine.keypad.down
  latch : ¬ (closing 0xf 0x0a).Covers word → after.keypad.latch = machine.keypad.latch
  random : ¬ (family 0xc).Covers word → after.random = machine.random
  halted : ¬ Listed [.whole 0x0000, .whole 0x00ee] word → after.halted = machine.halted

variable {machine : Machine} {word : Int}

/-- Only the words of five families compare. -/
theorem stays_of_covers {opcode : Opcode} (covers : opcode.Covers word)
    (plain : opcode.first ∉ comparing) : ¬ machine.Skips word := by
  have digit := covers.family_eq
  simp only [comparing, List.mem_cons, List.not_mem_nil, or_false, not_or] at plain
  obtain ⟨third, fourth, fifth, ninth, keys⟩ := plain
  rintro (skips | skips | skips | skips | skips | skips)
  · exact third (digit.symm.trans skips.1)
  · exact fourth (digit.symm.trans skips.1)
  · exact fifth (digit.symm.trans skips.1)
  · exact ninth (digit.symm.trans skips.1)
  · exact keys (digit.symm.trans skips.1.1)
  · exact keys (digit.symm.trans skips.1.1)

/-- A word that changes the counter only, and where it may. -/
theorem moved_confined {counter : Int}
    (kept : ¬ Listed jumps word → ¬ (closing 0xf 0x0a).Covers word → ¬ machine.Skips word →
      counter = machine.counter)
    (skip : machine.Skips word → counter = machine.counter + 2) :
    machine.Confined word { machine with counter := counter } where
  registers _ _ := rfl
  index _ := rfl
  stack _ := ⟨rfl, rfl⟩
  counter := kept
  skip := skip
  delay _ := rfl
  sound _ := rfl
  bytes _ _ := rfl
  zones := rfl
  accesses _ := rfl
  screen _ := ⟨rfl, rfl⟩
  held := rfl
  latch _ := rfl
  random _ := rfl
  halted _ := rfl

/-- A word that changes nothing. -/
theorem kept_confined (stays : ¬ machine.Skips word) : machine.Confined word machine :=
  moved_confined (fun _ _ _ => rfl) (fun skips => absurd skips stays)

theorem jumps_compare : ∀ opcode ∈ jumps, opcode.first ∉ comparing := by
  decide

theorem jumped_confined {opcode : Opcode} (covers : opcode.Covers word) (jumping : opcode ∈ jumps)
    (counter : Int) : machine.Confined word { machine with counter := counter } := by
  apply moved_confined
  · intro other
    exact absurd (covers.listed jumping) other
  · intro skips
    exact absurd skips (stays_of_covers covers (jumps_compare opcode jumping))

/-- A word that is rejected changes the counts of complaints only. -/
theorem reject_confined (stays : ¬ machine.Skips word) (complaint : Complaint) :
    machine.Confined word (machine.reject complaint).machine :=
  { kept_confined stays with }

/-- A word that may set the index. -/
theorem indexed_confined {opcode : Opcode} (covers : opcode.Covers word)
    (setting : opcode ∈ indexing) (plain : opcode.first ∉ comparing)
    (index : Int) : machine.Confined word { machine with index := index } :=
  { @kept_confined machine word (stays_of_covers covers plain) with
    index := fun other => absurd (covers.listed setting) other }

/-- A word that writes registers that it names. -/
theorem registers_confined (stays : ¬ machine.Skips word) (registers : Vector Int 16)
    (kept : ∀ place : Register, ¬ Names word place →
      registers.get place = machine.register place) :
    machine.Confined word { machine with registers := registers } :=
  { kept_confined stays with registers := kept }

/-- A word that writes the register that it names first. -/
theorem setRegister_confined {opcode : Opcode} (covers : opcode.Covers word)
    (writing : opcode ∈ intoRegister) (plain : opcode.first ∉ comparing)
    (value : Int) :
    machine.Confined word (machine.setRegister (Instruction.xOf word) value) := by
  apply registers_confined (stays_of_covers covers plain)
  intro place unnamed
  change (machine.setRegister _ value).register place = _
  rw [register_setRegister, if_neg]
  intro same
  exact unnamed (.inl ⟨covers.listed writing, same.symm⟩)

theorem skipIf_confined {condition : Bool} (compares : machine.Skips word ↔ condition = true) :
    machine.Confined word (machine.skipIf condition).machine := by
  cases condition with
  | false => exact kept_confined (by simp [compares])
  | true =>
      apply moved_confined
      · intro _ _ stays
        exact absurd (compares.mpr rfl) stays
      · intro _
        rfl

theorem jump_confined (covers : (Opcode.family 0x1).Covers word) (target : Address) :
    machine.Confined word (machine.jump target).machine := by
  unfold jump
  split
  · exact jumped_confined covers (by decide) _
  · exact reject_confined (stays_of_covers covers (by decide)) _

theorem jumpFrom_confined (covers : (Opcode.family 0xb).Covers word) (base : Address) :
    machine.Confined word (machine.jumpFrom base).machine := by
  unfold jumpFrom
  dsimp only
  split
  · exact jumped_confined covers (by decide) _
  · exact reject_confined (stays_of_covers covers (by decide)) _

theorem call_confined (covers : (Opcode.family 0x2).Covers word) (target : Address) :
    machine.Confined word (machine.call target).machine := by
  have stays : ¬ machine.Skips word := stays_of_covers covers (by decide)
  have named : Listed [.family 0x2, .whole 0x00ee] word := covers.listed (by decide)
  unfold call
  split
  case isTrue => exact reject_confined stays _
  split
  case isTrue => exact reject_confined stays _
  case isFalse =>
    split
    case h_1 => exact kept_confined stays
    case h_2 =>
      exact { jumped_confined covers (by decide) target.val with
        stack := fun other => absurd named other }

/-- A return takes the address off the stack also where it then halts. -/
theorem leave_confined (covers : (Opcode.whole 0x00ee).Covers word) :
    machine.Confined word machine.leave.machine := by
  have stays : ¬ machine.Skips word := stays_of_covers covers (by decide)
  have named : Listed [.family 0x2, .whole 0x00ee] word := covers.listed (by decide)
  have halting : Listed [.whole 0x0000, .whole 0x00ee] word := covers.listed (by decide)
  unfold leave
  split
  case isTrue => exact { kept_confined stays with halted := fun other => absurd halting other }
  case isFalse =>
    dsimp only
    split
    case h_1 => exact { kept_confined stays with stack := fun other => absurd named other }
    case h_2 slot _ =>
      have jumped := @jumped_confined machine word _ covers (by decide) machine.stack[slot]
      split
      · exact { jumped with stack := fun other => absurd named other }
      · exact { jumped with
          stack := fun other => absurd named other
          halted := fun other => absurd halting other }

theorem awaitKey_confined (covers : (closing 0xf 0x0a).Covers word) :
    machine.Confined word (machine.awaitKey (Instruction.xOf word)).machine := by
  have stays : ¬ machine.Skips word := stays_of_covers covers (by decide)
  unfold awaitKey
  split
  case h_1 =>
    apply moved_confined
    · intro _ other
      exact absurd covers other
    · intro skips
      exact absurd skips stays
  case h_2 key _ =>
    exact { setRegister_confined covers (by decide) (by decide) (key.val : Int) with
      held := rfl
      latch := fun other => absurd covers other }

/-- Values stored from an address on leave the bytes before and after them alone. -/
theorem storeEach_byteAt (memory : Memory) {place other : Int} (values : List Int)
    (outside : other < place ∨ place + values.length ≤ other) :
    (storeEach memory place values).memory.byteAt other = memory.byteAt other := by
  induction values generalizing memory place with
  | nil => rfl
  | cons value rest ih =>
      rw [List.length_cons] at outside
      have first := memory.write_byteAt_ne value (show other ≠ place by omega)
      have later := ih (memory.write place value).memory (show other < place + 1 ∨ _ by omega)
      exact later.trans first

theorem storeEach_zones (memory : Memory) (place : Int) (values : List Int) :
    (storeEach memory place values).memory.zones = memory.zones := by
  induction values generalizing memory place with
  | nil => rfl
  | cons value rest ih => exact (ih _ _).trans (memory.write_zones place value)

/-- The word may store at as many addresses from the index on as it has values. -/
theorem storeAll_confined (stays : ¬ machine.Skips word) (named : Listed accessing word)
    (values : List Int) (within : ∀ place, machine.index ≤ place →
      place < machine.index + values.length → machine.Stores word place) :
    machine.Confined word (machine.storeAll values).machine := by
  refine { kept_confined stays with bytes := ?_, zones := ?_, accesses := ?_ }
  · intro place unnamed
    by_cases outside : place < machine.index ∨ machine.index + values.length ≤ place
    · exact storeEach_byteAt _ values outside
    · rw [not_or] at outside
      exact absurd (within place (by omega) (by omega)) unnamed
  · exact storeEach_zones _ _ _
  · intro other
    exact absurd named other

theorem storeDigits_confined (covers : (closing 0xf 0x33).Covers word) (x : Register) :
    machine.Confined word (machine.storeDigits x).machine := by
  have stays : ¬ machine.Skips word := stays_of_covers covers (by decide)
  unfold storeDigits
  split
  case isTrue => exact reject_confined stays _
  case isFalse =>
    apply storeAll_confined stays (covers.listed (by decide))
    intro place low high
    have digits : (decimalDigits (machine.register x)).length = 3 := rfl
    exact ⟨low, .inl ⟨covers, by omega⟩⟩

theorem storeRegisters_confined (covers : (closing 0xf 0x55).Covers word) :
    machine.Confined word (machine.storeRegisters (Instruction.xOf word)).machine := by
  have stays : ¬ machine.Skips word := stays_of_covers covers (by decide)
  unfold storeRegisters
  split
  case isTrue => exact reject_confined stays _
  case isFalse =>
    apply storeAll_confined stays (covers.listed (by decide))
    intro place low high
    have count := List.length_take_le ((Instruction.xOf word).val + 1) machine.registers.toList
    exact ⟨low, .inr ⟨covers, by omega⟩⟩

/-- Bytes put into registers leave those behind the last one alone. -/
theorem putEach_above (registers : Vector Int 16) (place : Nat) (bytes : List UInt8) (slot : Nat)
    (inside : slot < 16) (above : place + bytes.length ≤ slot) :
    (putEach registers place bytes)[slot] = registers[slot] := by
  induction bytes generalizing registers place with
  | nil => rfl
  | cons byte rest ih =>
      rw [List.length_cons] at above
      have later := ih (registers.setIfInBounds place byte.toNat) (place + 1) (by omega)
      have first : (registers.setIfInBounds place (byte.toNat : Int))[slot] = registers[slot] := by
        rw [Vector.getElem_setIfInBounds, if_neg (by omega)]
      exact later.trans first

theorem loadRegisters_confined (covers : (closing 0xf 0x65).Covers word) :
    machine.Confined word (machine.loadRegisters (Instruction.xOf word)).machine := by
  have stays : ¬ machine.Skips word := stays_of_covers covers (by decide)
  have named : Listed accessing word := covers.listed (by decide)
  unfold loadRegisters
  split
  case isTrue => exact reject_confined stays _
  case isFalse =>
    have same := machine.memory.readEach_sameContents machine.index ((Instruction.xOf word).val + 1)
    have count := machine.memory.readEach_length machine.index ((Instruction.xOf word).val + 1)
    refine { kept_confined stays with registers := ?_, bytes := ?_, zones := ?_, accesses := ?_ }
    · intro place unnamed
      have above : ¬ place ≤ Instruction.xOf word := fun low => unnamed (.inr (.inr ⟨covers, low⟩))
      rw [Fin.le_def] at above
      exact putEach_above _ 0 _ place.val place.isLt (by omega)
    · intro place _
      exact Memory.byteAt_congr same.bytes place
    · exact same.zones
    · intro other
      exact absurd named other

/-- A sprite is read also where it then cannot be drawn. -/
theorem draw_confined (covers : (Opcode.family 0xd).Covers word) (x y : Register)
    (rows : Fin 16) : machine.Confined word (machine.draw x y rows).machine := by
  have stays : ¬ machine.Skips word := stays_of_covers covers (by decide)
  have named : Listed accessing word := covers.listed (by decide)
  have same := machine.memory.readRange_sameContents Display.tallestSprite machine.index rows.val
  have read : machine.Confined word
      { machine with
        memory := (machine.memory.readRange Display.tallestSprite machine.index rows.val).memory } :=
    { kept_confined stays with
      bytes := fun place _ => Memory.byteAt_congr same.bytes place
      zones := same.zones
      accesses := fun other => absurd named other }
  unfold draw
  split
  case isTrue => exact kept_confined stays
  split
  case isTrue => exact reject_confined stays _
  case isFalse =>
    dsimp only
    split
    case h_1 => exact read
    case h_2 =>
      split
      case h_1 => exact read
      case h_2 _ collision _ =>
        refine { read with registers := ?_, screen := ?_ }
        · intro place unnamed
          change (machine.setRegister flagRegister (flag collision)).register place = _
          rw [register_setRegister, if_neg]
          intro same
          exact unnamed (.inr (.inl ⟨covers.listed (by decide), same.symm⟩))
        · intro other
          exact absurd (covers.listed (by decide)) other

/-- The operations that set the flag are those whose opcodes may write it. -/
theorem combined_flag (operation : Operation) (first second : Int) :
    (combined operation first second).1 = none ∨ .ending 0x8 operation.digit ∈ intoFlag := by
  cases operation with
  | copy | or | and | xor => exact .inl rfl
  | add | subtract | halve | subtractFrom | double => exact .inr (by decide)

theorem combine_confined (operation : Operation)
    (covers : (ending 0x8 operation.digit).Covers word) (y : Register) :
    machine.Confined word (machine.combine operation (Instruction.xOf word) y) := by
  have writing : .ending 0x8 operation.digit ∈ intoRegister := by cases operation <;> decide
  rw [combine_registers]
  apply registers_confined (stays_of_covers covers (by simp [Opcode.first, comparing]))
  intro place unnamed
  have apart : Instruction.xOf word ≠ place := by
    intro same
    exact unnamed (.inl ⟨covers.listed writing, same.symm⟩)
  change (machine.combine operation (Instruction.xOf word) y).register place = _
  unfold combine
  dsimp only
  rw [register_setRegister, if_neg apart]
  split
  case h_1 value found =>
    rw [register_setRegister, if_neg]
    intro same
    rcases combined_flag operation (machine.register (Instruction.xOf word))
      (machine.register y) with clear | flagging
    · rw [clear] at found
      cases found
    · exact unnamed (.inr (.inl ⟨covers.listed flagging, same.symm⟩))
  case h_2 => rfl

theorem stop_confined (covers : (Opcode.whole 0x0000).Covers word) :
    machine.Confined word (machine.halt .instruction).machine :=
  { kept_confined (stays_of_covers covers (by decide)) with
    halted := fun other => absurd (covers.listed (by decide)) other }

/-- Both comparisons with a key look at keys only that there are. -/
theorem skipKey_confined {wanted : Bool} (compares : machine.Skips word ↔
      machine.register (Instruction.xOf word) ≤ 15 ∧
        machine.keypad.isDown (machine.register (Instruction.xOf word)) = wanted) :
    machine.Confined word (machine.skipKey (Instruction.xOf word) wanted).machine := by
  unfold skipKey
  dsimp only
  split
  case isTrue beyond =>
    apply kept_confined
    rw [compares]
    omega
  case isFalse inside =>
    apply skipIf_confined
    rw [compares, beq_iff_eq]
    exact and_iff_right (Int.not_lt.mp inside)

/-- An instruction changes no more than the opcode of the word that spells it lets it. -/
theorem execute_confined {instruction : Instruction}
    (spells : Instruction.Spells word instruction) :
    machine.Confined word (machine.execute instruction).machine := by
  cases spells with
  | clearScreen covers =>
      exact { kept_confined (stays_of_covers covers (by decide)) with
        screen := fun other => absurd (covers.listed (by decide)) other }
  | leave covers => exact leave_confined covers
  | stop covers => exact stop_confined covers
  | callNative covers => exact kept_confined (stays_of_covers covers (by decide))
  | jump covers => exact jump_confined covers _
  | call covers => exact call_confined covers _
  | skipEqual covers | skipUnequal covers | skipSame covers | skipDifferent covers =>
      apply skipIf_confined
      simp [Skips, Opcode.Covers, covers.family_eq, Opcode.first]
  | put covers | add covers | readDelay covers =>
      exact setRegister_confined covers (by decide) (by decide) _
  | combine operation covers => exact combine_confined operation covers _
  | setIndex covers | addIndex covers | findGlyph covers =>
      exact indexed_confined covers (by decide) (by decide) _
  | jumpFrom covers => exact jumpFrom_confined covers _
  | random covers =>
      exact { setRegister_confined covers (by decide) (by decide) _ with
        random := fun other => absurd covers other }
  | draw covers => exact draw_confined covers _ _ _
  | skipPressed covers | skipReleased covers =>
      apply skipKey_confined
      simp [Skips, Opcode.Covers, covers.1, covers.2]
  | awaitKey covers => exact awaitKey_confined covers
  | setDelay covers =>
      exact { kept_confined (stays_of_covers covers (by decide)) with
        delay := fun other => absurd covers other }
  | setSound covers =>
      exact { kept_confined (stays_of_covers covers (by decide)) with
        sound := fun other => absurd covers other }
  | storeDigits covers => exact storeDigits_confined covers _
  | storeRegisters covers => exact storeRegisters_confined covers
  | loadRegisters covers => exact loadRegisters_confined covers

/-- A word that compares spells an instruction. -/
theorem Skips.spells (skips : machine.Skips word) :
    ∃ instruction, Instruction.Spells word instruction := by
  rcases skips with skips | skips | skips | skips | skips | skips
  · exact ⟨_, .skipEqual skips.1⟩
  · exact ⟨_, .skipUnequal skips.1⟩
  · exact ⟨_, .skipSame skips.1⟩
  · exact ⟨_, .skipDifferent skips.1⟩
  · exact ⟨_, .skipPressed skips.1⟩
  · exact ⟨_, .skipReleased skips.1⟩

theorem perform_confined (machine : Machine) (word : Int) :
    machine.Confined word (machine.perform word).machine := by
  rcases machine.perform_cases word with ⟨instruction, spells, goes⟩ | ⟨unspelled, goes⟩
  · rw [goes]
    exact execute_confined spells
  · rw [goes]
    apply reject_confined
    intro skips
    obtain ⟨instruction, spells⟩ := skips.spells
    exact unspelled instruction spells

/-- A word that waits for a key goes back if there is none. -/
theorem awaitKey_counter (machine : Machine) (x : Register) :
    (machine.awaitKey x).result = .ok .stalled ∧
      (machine.awaitKey x).machine.counter = machine.counter - 2 ∨
    (machine.awaitKey x).result ≠ .ok .stalled ∧
      (machine.awaitKey x).machine.counter = machine.counter := by
  unfold awaitKey
  split
  · exact .inl ⟨rfl, rfl⟩
  · exact .inr ⟨nofun, rfl⟩

/-- No word changes the counts of cycles, and only one that is rejected those of complaints. -/
theorem Verdict.counts {performed : Performed} (verdict : machine.Verdict performed) :
    (performed.result ≠ .ok .rejected →
      performed.machine.errors = machine.errors ∧ performed.machine.tally = machine.tally) ∧
    performed.machine.cycles = machine.cycles ∧ performed.machine.last = machine.last ∧
    performed.machine.tone = machine.tone := by
  cases verdict with
  | rejected complaint whole =>
      rw [whole]
      exact ⟨fun accepted => absurd rfl accepted, rfl, rfl, rfl⟩
  | ignored event quiet whole =>
      rw [whole]
      exact ⟨fun _ => ⟨rfl, rfl⟩, rfl, rfl, rfl⟩
  | accepted accepts =>
      have counts := accepts.counts
      exact ⟨fun _ => ⟨counts.errors, counts.tally⟩, counts.cycles, counts.last, counts.tone⟩

/-- On every machine a word changes only the parts that its opcode names, and the registers, addresses
and distances of the counter that it names among them. It counts an error only if it is rejected, and
never a cycle. -/
theorem perform_frame (machine : Machine) (word : Int) :
    let performed := machine.perform word
    machine.Confined word performed.machine ∧
    ((closing 0xf 0x0a).Covers word →
      performed.result = .ok .stalled ∧ performed.machine.counter = machine.counter - 2 ∨
      performed.result ≠ .ok .stalled ∧ performed.machine.counter = machine.counter) ∧
    (performed.result ≠ .ok .rejected →
      performed.machine.errors = machine.errors ∧ performed.machine.tally = machine.tally) ∧
    performed.machine.cycles = machine.cycles ∧ performed.machine.last = machine.last ∧
    performed.machine.tone = machine.tone := by
  intro performed
  refine ⟨machine.perform_confined word, ?_, (machine.perform_verdict word).counts⟩
  intro waits
  have goes : performed = machine.awaitKey (Instruction.xOf word) :=
    machine.perform_spelled (.awaitKey waits)
  rw [goes]
  exact machine.awaitKey_counter _

/-- A wait for a key on a new machine puts the counter back and leaves the registers alone. -/
theorem perform_frame_wait :
    let machine := Machine.new (.blank 8 4) (.ofSeed 12345)
    (closing 0xf 0x0a).Covers 0xf30a ∧ (machine.perform 0xf30a).result = .ok .stalled ∧
      (machine.perform 0xf30a).machine.counter = machine.counter - 2 ∧
      (machine.perform 0xf30a).machine.errors = machine.errors ∧
      (machine.perform 0xf30a).machine.register 0x4 = machine.register 0x4 := by
  intro machine
  obtain ⟨confined, waits, counted, -⟩ := perform_frame machine 0xf30a
  have covers : (closing 0xf 0x0a).Covers 0xf30a := by decide
  have stalled : (machine.perform 0xf30a).result = .ok .stalled := rfl
  have unnamed : ¬ Names 0xf30a 0x4 := by decide
  refine ⟨covers, stalled, ?_, ?_, confined.registers 0x4 unnamed⟩
  · rcases waits covers with ⟨-, back⟩ | ⟨other, -⟩
    · exact back
    · exact absurd stalled other
  · have accepted : (machine.perform 0xf30a).result ≠ .ok .rejected := by
      rw [stalled]
      nofun
    exact (counted accepted).1

end Machine

end ChipEight
