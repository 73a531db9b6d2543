/-
This file moves blocks of bytes between the registers and the memory. What is stored and loaded again, or loaded and
stored again, is as it was, but for registers that are stored on the glyphs, which no program can change.
-/

import ChipEight.Proofs.Instruction.Word
import ChipEight.Proofs.Machine.Invariant
import ChipEight.Proofs.Machine.Storage
import ChipEight.Proofs.Memory.Ranges

namespace ChipEight

namespace Memory

/-- The addresses of the glyphs. -/
def IsGlyphAddress (place : Int) : Prop := 0x50 ≤ place ∧ place < 0xa0

instance (place : Int) : Decidable (IsGlyphAddress place) := inferInstanceAs (Decidable (_ ∧ _))

/-- Of a memory with the zone of a new one all addresses but those of the glyphs take bytes. -/
theorem takes_iff {memory : Memory} (zones : memory.zones = initial.zones) {place : Int}
    (inside : 0 ≤ place ∧ place < size) : memory.Takes place ↔ ¬ IsGlyphAddress place := by
  have only : initial.zones = [(0x50, 0xa0)] := rfl
  unfold Takes IsGlyphAddress
  rw [zones, only]
  simp only [List.mem_singleton, forall_eq, inside, true_and, and_self]

/-- The byte of a value that is one. -/
theorem lowByte_toNat {value : Int} (byte : Machine.IsByte value) : ((lowByte value).toNat : Int) = value := by
  obtain ⟨small, inside, rfl⟩ := byte.exists_nat
  have same : ((small : Int) % 256).toNat = small := by omega
  rw [lowByte, same, UInt8.toNat_ofNat_of_lt' inside]

theorem HoldsGlyphs.byteAt {memory : Memory} (held : memory.HoldsGlyphs) {place : Int}
    (glyph : IsGlyphAddress place) : memory.byteAt place = glyphs.getD (place - 0x50).toNat 0 := by
  obtain ⟨low, high⟩ := glyph
  have count : glyphs.length = 0x50 := rfl
  have inside : (place - 0x50).toNat < glyphs.length := by omega
  have here := held (place - 0x50).toNat inside
  rw [show ((glyphStart + (place - 0x50).toNat : Nat) : Int) = place by simp only [glyphStart]; omega] at here
  rw [here, List.getD_eq_getElem?_getD, List.getElem?_eq_getElem inside, Option.getD_some]

/-- From a start on the values are stored, but for those on the glyphs, and no other byte is changed. -/
structure Stored (start : Int) (values : List Int) (before after : Memory) : Prop where
  inside : ∀ offset (inside : offset < values.length), ¬ IsGlyphAddress (start + offset) →
    after.byteAt (start + offset) = lowByte values[offset]
  outside : ∀ place, IsGlyphAddress place ∨ place < start ∨ start + values.length ≤ place →
    after.byteAt place = before.byteAt place

end Memory

namespace Machine

open Instruction (byteWord)
open Memory (IsGlyphAddress)

/-- Each value is stored if its address takes it. -/
theorem storeEach_offset (memory : Memory) (place : Int) (values : List Int) {offset : Nat}
    (inside : offset < values.length) :
    (storeEach memory place values).memory.byteAt (place + offset) =
      if memory.Takes (place + offset) then Memory.lowByte values[offset]
      else memory.byteAt (place + offset) := by
  induction values generalizing memory place offset with
  | nil => exact absurd inside (Nat.not_lt_zero _)
  | cons value rest ih =>
      change (storeEach (memory.write place value).memory (place + 1) rest).memory.byteAt _ = _
      cases offset with
      | zero =>
          rw [Int.natCast_zero, Int.add_zero, storeEach_byteAt _ rest (.inl (by omega)), Memory.write_byteAt]
          simp only [true_and, List.getElem_cons_zero]
      | succ offset =>
          have next : place + ((offset + 1 : Nat) : Int) = place + 1 + offset := by omega
          rw [next, ih _ _ (Nat.lt_of_succ_lt_succ inside), Memory.write_byteAt_ne memory value (by omega)]
          simp only [Memory.takes_congr (memory.write_zones place value), List.getElem_cons_succ]

theorem storeEach_stored {memory : Memory} (zones : memory.zones = Memory.initial.zones) {start : Int}
    {values : List Int} (low : 0 ≤ start) (high : start + values.length ≤ Memory.size) :
    memory.Stored start values (storeEach memory start values).memory where
  inside offset inside other := by
    rw [storeEach_offset memory start values inside, if_pos]
    exact (Memory.takes_iff zones ⟨by omega, by omega⟩).mpr other
  outside place apart := by
    by_cases within : start ≤ place ∧ place < start + values.length
    · have glyph : IsGlyphAddress place := apart.resolve_right (by omega)
      obtain ⟨offset, rfl⟩ : ∃ offset : Nat, place = start + offset := ⟨(place - start).toNat, by omega⟩
      rw [storeEach_offset memory start values (by omega), if_neg]
      exact fun takes => (Memory.takes_iff zones ⟨by omega, by omega⟩).mp takes glyph
    · exact storeEach_byteAt memory values (by omega)

/-- Bytes are put into the registers from a place on, one after another. -/
theorem putEach_getElem (registers : Vector Int 16) (place : Nat) (bytes : List UInt8) (slot : Nat)
    (inside : slot < 16) :
    (putEach registers place bytes)[slot] =
      if place ≤ slot then (bytes[slot - place]?.map fun byte => (byte.toNat : Int)).getD registers[slot]
      else registers[slot] := by
  induction bytes generalizing registers place with
  | nil => simp [putEach]
  | cons byte rest ih =>
      change (putEach (registers.setIfInBounds place byte.toNat) (place + 1) rest)[slot] = _
      rw [ih, Vector.getElem_setIfInBounds]
      rcases Nat.lt_trichotomy place slot with before | here | after
      · rw [if_pos (show place + 1 ≤ slot from before), if_neg (Nat.ne_of_lt before), if_pos (Nat.le_of_lt before),
          show slot - place = slot - (place + 1) + 1 by omega, List.getElem?_cons_succ]
      · rw [if_neg (by omega), if_pos here, if_pos (Nat.le_of_eq here), here, Nat.sub_self]
        rfl
      · rw [if_neg (by omega), if_neg (Nat.ne_of_gt after), if_neg (Nat.not_le.mpr after)]

variable {machine : Machine} {x : Register}

/-- What is put into a register that is loaded, and what into the others. -/
theorem putEach_readEach (machine : Machine) (memory : Memory) (start : Int) (x place : Register) :
    { machine with registers := putEach machine.registers 0 (memory.readEach start (x.val + 1)).value }.register place =
      if place ≤ x then ((memory.byteAt (start + place.val)).toNat : Int) else machine.register place := by
  change (putEach _ _ _)[place.val] = _
  rw [putEach_getElem, if_pos (Nat.zero_le _), Nat.sub_zero, Memory.readEach_value, List.getElem?_map]
  by_cases low : place ≤ x
  · rw [if_pos low, List.getElem?_range (Nat.lt_succ_of_le low)]
    rfl
  · have high : x.val + 1 ≤ place.val := Nat.lt_of_not_le low
    rw [if_neg low, List.getElem?_eq_none (by rwa [List.length_range])]
    rfl

/-- A block of registers that fits is stored from the index on. -/
theorem perform_storeRegisters (fits : machine.index + x.val < Memory.size) :
    machine.perform (byteWord 0xf x 0x55) = machine.storeAll (machine.registers.toList.take (x.val + 1)) := by
  rw [machine.perform_spelled (Instruction.spells_storeRegisters x)]
  exact if_neg (Int.not_le.mpr fits)

/-- A block of registers that fits is loaded from the index on. -/
theorem perform_loadRegisters (fits : machine.index + x.val < Memory.size) :
    let read := machine.memory.readEach machine.index (x.val + 1)
    machine.perform (byteWord 0xf x 0x65) =
      ⟨{ machine with memory := read.memory, registers := putEach machine.registers 0 read.value }, .ok .applied,
        read.notes.map .memory⟩ := by
  rw [machine.perform_spelled (Instruction.spells_loadRegisters x)]
  exact if_neg (Int.not_le.mpr fits)

theorem perform_storeDigits (machine : Machine) (x : Register) :
    machine.perform (byteWord 0xf x 0x33) =
      if Memory.size ≤ machine.index + 2 then machine.reject (.digitsOutside machine.index)
      else machine.storeAll (decimalDigits (machine.register x)) :=
  machine.perform_spelled (Instruction.spells_storeDigits x)

theorem storeRegisters_applied (fits : machine.index + x.val < Memory.size) :
    (machine.perform (byteWord 0xf x 0x55)).result = .ok .applied := by
  rw [perform_storeRegisters fits]
  rfl

theorem loadRegisters_applied (fits : machine.index + x.val < Memory.size) :
    (machine.perform (byteWord 0xf x 0x65)).result = .ok .applied := by
  rw [perform_loadRegisters fits]

theorem storeDigits_result (machine : Machine) (x : Register) :
    (machine.perform (byteWord 0xf x 0x33)).result =
      .ok (if machine.index + 2 < Memory.size then .applied else .rejected) := by
  rw [perform_storeDigits]
  by_cases fits : machine.index + 2 < Memory.size
  · rw [if_neg (Int.not_le.mpr fits), if_pos fits]
    rfl
  · rw [if_pos (Int.not_lt.mp fits), if_neg fits]
    rfl

theorem storeRegisters_index (machine : Machine) (x : Register) :
    (machine.perform (byteWord 0xf x 0x55)).machine.index = machine.index := by
  rw [machine.perform_spelled (Instruction.spells_storeRegisters x)]
  change (machine.storeRegisters x).machine.index = _
  unfold storeRegisters
  split <;> rfl

theorem loadRegisters_index (machine : Machine) (x : Register) :
    (machine.perform (byteWord 0xf x 0x65)).machine.index = machine.index := by
  rw [machine.perform_spelled (Instruction.spells_loadRegisters x)]
  change (machine.loadRegisters x).machine.index = _
  unfold loadRegisters
  split <;> rfl

theorem storeDigits_index (machine : Machine) (x : Register) :
    (machine.perform (byteWord 0xf x 0x33)).machine.index = machine.index := by
  rw [perform_storeDigits]
  split <;> rfl

theorem length_block (machine : Machine) (x : Register) :
    (machine.registers.toList.take (x.val + 1)).length = x.val + 1 := by
  have inside := x.isLt
  rw [List.length_take, Vector.length_toList]
  omega

theorem getElem_block (machine : Machine) (x place : Register)
    (inside : place.val < (machine.registers.toList.take (x.val + 1)).length) :
    (machine.registers.toList.take (x.val + 1))[place.val] = machine.register place := by
  rw [List.getElem_take, Vector.getElem_toList]
  rfl

/-- A block that is stored leaves the other bytes alone, and those of the glyphs. -/
theorem block_stored (zones : machine.memory.zones = Memory.initial.zones) (low : 0 ≤ machine.index)
    (fits : machine.index + x.val < Memory.size) :
    machine.memory.Stored machine.index (machine.registers.toList.take (x.val + 1))
      (machine.perform (byteWord 0xf x 0x55)).machine.memory := by
  rw [perform_storeRegisters fits]
  apply storeEach_stored zones low
  rw [length_block]
  omega

/-- What is stored at an address of the block. -/
theorem block_byteAt (zones : machine.memory.zones = Memory.initial.zones) (low : 0 ≤ machine.index)
    (fits : machine.index + x.val < Memory.size) {place : Register} (inside : place ≤ x) :
    (machine.perform (byteWord 0xf x 0x55)).machine.memory.byteAt (machine.index + place.val) =
      if IsGlyphAddress (machine.index + place.val) then machine.memory.byteAt (machine.index + place.val)
      else Memory.lowByte (machine.register place) := by
  have stored := block_stored zones low fits
  split
  case isTrue glyph => exact stored.outside _ (.inl glyph)
  case isFalse other =>
    have within : place.val < (machine.registers.toList.take (x.val + 1)).length := by
      rw [length_block]
      exact Nat.lt_succ_of_le inside
    rw [← getElem_block machine x place within]
    exact stored.inside place.val within other

theorem loadRegisters_register (fits : machine.index + x.val < Memory.size) (place : Register) :
    (machine.perform (byteWord 0xf x 0x65)).machine.register place =
      if place ≤ x then ((machine.memory.byteAt (machine.index + place.val)).toNat : Int)
      else machine.register place := by
  rw [perform_loadRegisters fits]
  exact putEach_readEach machine machine.memory machine.index x place

theorem loadRegisters_sameContents (fits : machine.index + x.val < Memory.size) :
    (machine.perform (byteWord 0xf x 0x65)).machine.memory.SameContents machine.memory := by
  rw [perform_loadRegisters fits]
  exact machine.memory.readEach_sameContents machine.index (x.val + 1)

theorem storeRegisters_registers (fits : machine.index + x.val < Memory.size) :
    (machine.perform (byteWord 0xf x 0x55)).machine.registers = machine.registers := by
  rw [perform_storeRegisters fits]
  rfl

/-- A register that is stored and loaded again is as it was, unless its address is one of the glyphs. -/
theorem storeRegisters_loadRegisters (reached : Reachable machine) (fits : machine.index + x.val < Memory.size)
    (place : Register) :
    ((machine.perform (byteWord 0xf x 0x55)).machine.perform (byteWord 0xf x 0x65)).machine.register place =
      if place ≤ x ∧ IsGlyphAddress (machine.index + place.val) then
        ((Memory.glyphs.getD (machine.index + place.val - 0x50).toNat 0).toNat : Int)
      else machine.register place := by
  have valid := reached.wellFormed
  have same := storeRegisters_index machine x
  have kept : (machine.perform (byteWord 0xf x 0x55)).machine.register place = machine.register place := by
    unfold register
    rw [storeRegisters_registers fits]
  rw [loadRegisters_register (by rwa [same]), same, kept]
  by_cases inside : place ≤ x
  · rw [if_pos inside, block_byteAt reached.zones valid.index.1 fits inside]
    by_cases glyph : IsGlyphAddress (machine.index + place.val)
    · rw [if_pos glyph, if_pos ⟨inside, glyph⟩, reached.guarded.held.byteAt glyph]
    · rw [if_neg glyph, if_neg fun both => glyph both.2, Memory.lowByte_toNat (valid.registers place)]
  · rw [if_neg inside, if_neg fun both => inside both.1]

/-- A block that is loaded and stored again leaves all bytes as they were. -/
theorem loadRegisters_storeRegisters (reached : Reachable machine) (fits : machine.index + x.val < Memory.size) :
    ((machine.perform (byteWord 0xf x 0x65)).machine.perform (byteWord 0xf x 0x55)).machine.memory.bytes =
      machine.memory.bytes := by
  have same := loadRegisters_index machine x
  have contents := loadRegisters_sameContents fits
  have loaded := loadRegisters_register fits
  generalize (machine.perform (byteWord 0xf x 0x65)).machine = after at same contents loaded ⊢
  have zones := contents.zones.trans reached.zones
  have low : 0 ≤ after.index := same ▸ reached.wellFormed.index.1
  have room : after.index + x.val < Memory.size := same ▸ fits
  apply Memory.bytes_eq_of_byteAt
  intro place
  rw [← Memory.byteAt_congr contents.bytes]
  by_cases within : after.index ≤ place ∧ place ≤ after.index + x.val
  · obtain ⟨slot, rfl⟩ : ∃ slot : Register, place = after.index + slot.val :=
      ⟨⟨(place - after.index).toNat, by omega⟩, by dsimp only; omega⟩
    have inside : slot ≤ x := Fin.le_def.mpr (by omega)
    rw [block_byteAt zones low room inside, loaded, if_pos inside, ← same,
      ← Memory.byteAt_congr contents.bytes, Memory.lowByte_ofByte, ite_self]
  · have stored := block_stored zones low room
    apply stored.outside
    rw [length_block]
    omega

/-- The three digits that are stored for a value of eight bits. -/
theorem decimalDigits_byte {value : Int} (byte : IsByte value) :
    ∃ hundreds tens ones : Nat, hundreds ≤ 9 ∧ tens ≤ 9 ∧ ones ≤ 9 ∧
      ((100 * hundreds + 10 * tens + ones : Nat) : Int) = value ∧
      decimalDigits value = [(hundreds : Int), (tens : Int), (ones : Int)] := by
  obtain ⟨small, inside, rfl⟩ := byte.exists_nat
  exact ⟨small / 100, small / 10 % 10, small % 10, by omega, by omega, by omega, by omega, rfl⟩

theorem digits_stored (reached : Reachable machine) (fits : machine.index + 2 < Memory.size) (x : Register) :
    machine.memory.Stored machine.index (decimalDigits (machine.register x))
      (machine.perform (byteWord 0xf x 0x33)).machine.memory := by
  have count : (decimalDigits (machine.register x)).length = 3 := rfl
  rw [perform_storeDigits, if_neg (Int.not_le.mpr fits)]
  apply storeEach_stored reached.zones reached.wellFormed.index.1
  omega

/-- The digits of a value that are found at the index and behind it. -/
theorem digits_byteAt (reached : Reachable machine) (fits : machine.index + 2 < Memory.size) (x : Register) :
    let after := (machine.perform (byteWord 0xf x 0x33)).machine.memory
    ∃ hundreds tens ones : Nat, hundreds ≤ 9 ∧ tens ≤ 9 ∧ ones ≤ 9 ∧
      ((100 * hundreds + 10 * tens + ones : Nat) : Int) = machine.register x ∧
      (¬ IsGlyphAddress machine.index → (after.byteAt machine.index).toNat = hundreds) ∧
      (¬ IsGlyphAddress (machine.index + 1) → (after.byteAt (machine.index + 1)).toNat = tens) ∧
      (¬ IsGlyphAddress (machine.index + 2) → (after.byteAt (machine.index + 2)).toNat = ones) ∧
      ∀ place, IsGlyphAddress place ∨ place < machine.index ∨ machine.index + 2 < place →
        after.byteAt place = machine.memory.byteAt place := by
  intro after
  obtain ⟨hundreds, tens, ones, first, second, third, value, digits⟩ :=
    decimalDigits_byte (reached.wellFormed.registers x)
  have stored := digits_stored reached fits x
  rw [digits] at stored
  have digit {number : Nat} (small : number ≤ 9) : (Memory.lowByte (number : Int)).toNat = number :=
    Int.ofNat.inj (Memory.lowByte_toNat (isByte_nat (by omega)))
  refine ⟨hundreds, tens, ones, first, second, third, value, fun other => ?_, fun other => ?_, fun other => ?_,
    fun place apart => ?_⟩
  · have byte := stored.inside 0 (by simp)
    rw [Int.natCast_zero, Int.add_zero] at byte
    exact (congrArg UInt8.toNat (byte other)).trans (digit first)
  · exact (congrArg UInt8.toNat (stored.inside 1 (by simp) other)).trans (digit second)
  · exact (congrArg UInt8.toNat (stored.inside 2 (by simp) other)).trans (digit third)
  · have count : [(hundreds : Int), (tens : Int), (ones : Int)].length = 3 := rfl
    exact stored.outside place (apart.imp_right (Or.imp_right fun above => by omega))

/-- A value whose digits do not fit changes no byte. -/
theorem digits_rejected (outside : Memory.size ≤ machine.index + 2) (x : Register) :
    (machine.perform (byteWord 0xf x 0x33)).machine.memory = machine.memory := by
  rw [perform_storeDigits, if_pos outside]
  rfl

/-- Of every machine that a host can get, where a block fits behind the index: stored and loaded again each register is
as it was, but for those on the glyphs, which are then the bytes of the glyphs there. Loaded and stored again all bytes
are as they were. A block is stored at its addresses that are none of the glyphs, and no other byte changes. The digits
of a value are stored if all three have an address, again but on glyphs, and no other byte changes. The index stays. -/
theorem blocks_undo (reached : Reachable machine) (x : Register) :
    let store := byteWord 0xf x 0x55
    let load := byteWord 0xf x 0x65
    let stored := machine.perform store
    let restored := stored.machine.perform load
    let loaded := machine.perform load
    let returned := loaded.machine.perform store
    let noted := machine.perform (byteWord 0xf x 0x33)
    (machine.index + x.val < 0x1000 →
      stored.result = .ok .applied ∧ restored.result = .ok .applied ∧
      loaded.result = .ok .applied ∧ returned.result = .ok .applied ∧
      (∀ place : Register, restored.machine.register place =
        if place ≤ x ∧ IsGlyphAddress (machine.index + place.val) then
          ((Memory.glyphs.getD (machine.index + place.val - 0x50).toNat 0).toNat : Int)
        else machine.register place) ∧
      returned.machine.memory.bytes = machine.memory.bytes ∧
      (∀ place : Register, place ≤ x → ¬ IsGlyphAddress (machine.index + place.val) →
        ((stored.machine.memory.byteAt (machine.index + place.val)).toNat : Int) = machine.register place) ∧
      ∀ place, IsGlyphAddress place ∨ place < machine.index ∨ machine.index + x.val < place →
        stored.machine.memory.byteAt place = machine.memory.byteAt place) ∧
    noted.result = .ok (if machine.index + 2 < 0x1000 then .applied else .rejected) ∧
    (machine.index + 2 < 0x1000 → ∃ hundreds tens ones : Nat, hundreds ≤ 9 ∧ tens ≤ 9 ∧ ones ≤ 9 ∧
      ((100 * hundreds + 10 * tens + ones : Nat) : Int) = machine.register x ∧
      (¬ IsGlyphAddress machine.index → (noted.machine.memory.byteAt machine.index).toNat = hundreds) ∧
      (¬ IsGlyphAddress (machine.index + 1) → (noted.machine.memory.byteAt (machine.index + 1)).toNat = tens) ∧
      (¬ IsGlyphAddress (machine.index + 2) → (noted.machine.memory.byteAt (machine.index + 2)).toNat = ones) ∧
      ∀ place, IsGlyphAddress place ∨ place < machine.index ∨ machine.index + 2 < place →
        noted.machine.memory.byteAt place = machine.memory.byteAt place) ∧
    (0x1000 ≤ machine.index + 2 → noted.machine.memory = machine.memory) ∧
    stored.machine.index = machine.index ∧ restored.machine.index = machine.index ∧
    loaded.machine.index = machine.index ∧ returned.machine.index = machine.index ∧
    noted.machine.index = machine.index := by
  intro store load stored restored loaded returned noted
  have valid := reached.wellFormed
  have storedIndex : stored.machine.index = machine.index := storeRegisters_index machine x
  have loadedIndex : loaded.machine.index = machine.index := loadRegisters_index machine x
  refine ⟨fun fits => ?_, storeDigits_result machine x, fun fits => ?_, fun outside => digits_rejected outside x,
    storedIndex, (loadRegisters_index stored.machine x).trans storedIndex, loadedIndex,
    (storeRegisters_index loaded.machine x).trans loadedIndex, storeDigits_index machine x⟩
  · refine ⟨storeRegisters_applied fits, loadRegisters_applied (by rwa [storedIndex]), loadRegisters_applied fits,
      storeRegisters_applied (by rwa [loadedIndex]), storeRegisters_loadRegisters reached fits,
      loadRegisters_storeRegisters reached fits, fun place inside other => ?_, fun place apart => ?_⟩
    · rw [block_byteAt reached.zones valid.index.1 fits inside, if_neg other,
        Memory.lowByte_toNat (valid.registers place)]
    · have count := length_block machine x
      exact (block_stored reached.zones valid.index.1 fits).outside place
        (apart.imp_right (Or.imp_right fun above => by omega))
  · exact digits_byteAt reached fits x

/-- A machine that faces a word for its index has the address of the word there after a cycle. -/
theorem Faces.index {word : Int} (faces : machine.Faces word) (covers : (Opcode.family 0xa).Covers word) :
    machine.cycle.machine.index = (Instruction.addressOf word).val := by
  obtain ⟨memory, -, goes⟩ := faces.applies (.setIndex covers)
  rw [(goes _ rfl faces.few).2]
  rfl

/-- A program of one word, which sets the index to an address just before the glyphs, is loaded and run. -/
def beforeGlyphs : List Request := [.load (some [0xa0, 0x4e]), .cycle]

theorem beforeGlyphs_index (machine : Machine) : (machine.serveAll beforeGlyphs).index = 0x4e := by
  have faces : (machine.load (some [0xa0, 0x4e])).machine.Faces 0xa04e := machine.load_faces (by decide) (by decide)
  rw [beforeGlyphs, serveAll_load_cycle, faces.index (by decide)]
  rfl

/-- Four registers that are stored across the border of the glyphs: the last two come back as bytes of the first
glyph. -/
theorem blocks_undo_border :
    let machine := (Machine.new (.blank 8 4) (.ofSeed 12345)).serveAll beforeGlyphs
    let restored := (machine.perform 0xf355).machine.perform 0xf365
    Reachable machine ∧ machine.index + (0x3 : Register).val < 0x1000 ∧ restored.result = .ok .applied ∧
      restored.machine.register 0x1 = machine.register 0x1 ∧
      restored.machine.register 0x2 = 0xf0 ∧ restored.machine.register 0x3 = 0x90 := by
  intro machine restored
  have reached : Reachable machine := Reachable.serveAll (.new _ _ (by decide) (by decide)) beforeGlyphs
  have index : machine.index = 0x4e := beforeGlyphs_index _
  clear_value machine
  have fits : machine.index + (0x3 : Register).val < 0x1000 := by
    rw [index]
    decide
  obtain ⟨-, applies, -, -, registers, -⟩ := (blocks_undo reached 0x3).1 fits
  rw [index] at registers
  refine ⟨reached, fits, applies, ?_, ?_, ?_⟩
  · exact (registers 0x1).trans (if_neg (by decide))
  · exact (registers 0x2).trans (if_pos (by decide))
  · exact (registers 0x3).trans (if_pos (by decide))

end Machine

end ChipEight
