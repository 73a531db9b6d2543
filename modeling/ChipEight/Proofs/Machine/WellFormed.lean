/-
This file says which machines are well formed, and that changes of one part of a machine keep it so
when the new part fits.
-/

import ChipEight.Machine.Execute
import ChipEight.Proofs.Display.Draw

namespace ChipEight.Machine

/-- The values that eight bits hold. -/
def IsByte (value : Int) : Prop := 0 ≤ value ∧ value ≤ 255

instance (value : Int) : Decidable (IsByte value) := inferInstanceAs (Decidable (_ ∧ _))

/-- The addresses after an instruction of the program area, which calls leave on the stack. -/
def IsReturnAddress (place : Int) : Prop :=
  0x202 ≤ place ∧ place ≤ 0x1000 ∧ place % 2 = 0

/-- The machines that run between two requests. The counter may have passed the last word, and then
one more by a skip. The slots of the stack from the depth on may hold anything. -/
structure WellFormed (machine : Machine) : Prop where
  registers : ∀ place : Register, IsByte (machine.register place)
  index : 0 ≤ machine.index ∧ machine.index ≤ 0xfff
  counter : 0x200 ≤ machine.counter ∧ machine.counter ≤ 0x1002 ∧ machine.counter % 2 = 0
  depth : 0 ≤ machine.depth ∧ machine.depth ≤ 16
  stack : ∀ slot : Fin 16, (slot.val : Int) < machine.depth → IsReturnAddress machine.stack[slot]
  delay : IsByte machine.delay
  sound : IsByte machine.sound
  wide : 0 < machine.display.width
  high : 0 < machine.display.height

theorem isByte_nat {value : Nat} (small : value < 256) : IsByte value :=
  ⟨by omega, by omega⟩

theorem isByte_zero : IsByte 0 := ⟨by decide, by decide⟩

theorem isByte_uint8 (byte : UInt8) : IsByte byte.toNat := isByte_nat byte.toNat_lt

theorem isByte_lowByte (value : Int) : IsByte (lowByte value) := by
  unfold lowByte IsByte
  omega

theorem isByte_flag (condition : Bool) : IsByte (flag condition) := by
  cases condition <;> decide

/-- A value of eight bits is a natural number below their count. -/
theorem IsByte.exists_nat {value : Int} (byte : IsByte value) :
    ∃ small : Nat, small < 256 ∧ value = small :=
  ⟨value.toNat, by have := byte.1; have := byte.2; omega, by have := byte.1; omega⟩

theorem isProgramAddress_iff (place : Int) :
    isProgramAddress place = true ↔ 0x200 ≤ place ∧ place < 0x1000 ∧ place % 2 = 0 := by
  simp only [isProgramAddress, Bool.and_eq_true, decide_eq_true_eq, beq_iff_eq]
  simp only [Memory.programStart, Memory.size]
  omega

/-- The counter may be at every address after an instruction. -/
theorem IsReturnAddress.fits {place : Int} (past : IsReturnAddress place) :
    0x200 ≤ place ∧ place ≤ 0x1002 ∧ place % 2 = 0 :=
  ⟨Int.le_trans (by decide) past.1, Int.le_trans past.2.1 (by decide), past.2.2⟩

/-- An operation on values of eight bits gives such values for the flag and for the result. -/
theorem combined_isByte (operation : Operation) {first second : Int} (low : IsByte first)
    (high : IsByte second) :
    (∀ value ∈ (combined operation first second).1, IsByte value) ∧
      IsByte (combined operation first second).2 := by
  obtain ⟨a, aSmall, rfl⟩ := low.exists_nat
  obtain ⟨b, bSmall, rfl⟩ := high.exists_nat
  cases operation with
  | copy => exact ⟨by simp [combined], high⟩
  | or => exact ⟨by simp [combined], isByte_nat (Nat.or_lt_two_pow (n := 8) aSmall bSmall)⟩
  | and => exact ⟨by simp [combined], isByte_nat (Nat.lt_of_le_of_lt Nat.and_le_left aSmall)⟩
  | xor => exact ⟨by simp [combined], isByte_nat (Nat.xor_lt_two_pow (n := 8) aSmall bSmall)⟩
  | add | subtract | subtractFrom =>
      refine ⟨?_, isByte_lowByte _⟩
      intro value same
      cases same
      exact isByte_flag _
  | halve | double =>
      refine ⟨?_, by simp only [combined, lowByte, IsByte]; omega⟩
      intro value same
      cases same
      simp only [IsByte]
      omega

theorem register_setRegister (machine : Machine) (place other : Register) (value : Int) :
    (machine.setRegister place value).register other =
      if place = other then value else machine.register other := by
  simp only [register, setRegister, Fin.getElem_fin, Vector.getElem_set, Fin.ext_iff]

/-- An operation on two registers changes registers only. -/
theorem combine_registers (machine : Machine) (operation : Operation) (x y : Register) :
    machine.combine operation x y =
      { machine with registers := (machine.combine operation x y).registers } := by
  unfold combine
  dsimp only
  split <;> rfl

variable {machine : Machine}

theorem WellFormed.setRegister (valid : machine.WellFormed) (place : Register) {value : Int}
    (byte : IsByte value) : (machine.setRegister place value).WellFormed :=
  { valid with
    registers := by
      intro other
      rw [register_setRegister]
      split
      · exact byte
      · exact valid.registers other }

theorem WellFormed.combine (valid : machine.WellFormed) (operation : Operation) (x y : Register) :
    (machine.combine operation x y).WellFormed := by
  obtain ⟨flagged, result⟩ :=
    combined_isByte operation (valid.registers x) (valid.registers y)
  unfold Machine.combine
  dsimp only
  split
  case h_1 value same => exact (valid.setRegister _ (flagged value same)).setRegister x result
  case h_2 => exact valid.setRegister x result

theorem WellFormed.putRandom (valid : machine.WellFormed) (x : Register) (mask : Fin 256) :
    (machine.putRandom x mask).WellFormed := by
  have byte : IsByte ((machine.random.next.1.toNat &&& mask.val : Nat) : Int) :=
    isByte_nat (Nat.lt_of_le_of_lt Nat.and_le_right mask.isLt)
  exact { valid.setRegister x byte with }

theorem glyphAddress_inside {digit : Int} (low : 0 ≤ digit) (high : digit ≤ 15) :
    0x50 ≤ Memory.glyphAddress digit ∧ Memory.glyphAddress digit + 5 ≤ 0xa0 := by
  unfold Memory.glyphAddress
  rw [if_pos ⟨low, high⟩]
  simp only [Memory.glyphStart, Memory.glyphHeight]
  omega

theorem WellFormed.findGlyph (valid : machine.WellFormed) (x : Register) :
    (machine.findGlyph x).WellFormed := by
  have inside := @glyphAddress_inside (machine.register x % 16) (by omega) (by omega)
  exact { valid with index := by simp only [Machine.findGlyph]; omega }

/-- Bytes in place of registers leave values of eight bits. -/
theorem putEach_isByte (registers : Vector Int 16) (place : Nat) (bytes : List UInt8)
    (before : ∀ slot (inside : slot < 16), IsByte registers[slot]) :
    ∀ slot (inside : slot < 16), IsByte (putEach registers place bytes)[slot] := by
  induction bytes generalizing registers place with
  | nil => exact before
  | cons byte rest ih =>
      apply ih
      intro slot inside
      rw [Vector.getElem_setIfInBounds]
      split
      · exact isByte_uint8 byte
      · exact before slot inside

end ChipEight.Machine
