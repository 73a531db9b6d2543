/-
This file puts words together from their digits. The parts of such a word are read back from it, so every
operation on two registers, every sprite and every request to a device has a word.
-/

import ChipEight.Proofs.Instruction.Opcode

namespace ChipEight

namespace Instruction

/-- The word of a first digit, a register and a byte. -/
def byteWord (first : Nat) (x : Register) (low : Nat) : Int :=
  ((0x1000 * first + 0x100 * x.val + low : Nat) : Int)

/-- The word of a first digit, two registers and a last digit. -/
def pairWord (first : Nat) (x y : Register) (last : Nat) : Int :=
  byteWord first x (0x10 * y.val + last)

variable {first low last : Nat} {x y : Register}

theorem lowWord_byteWord (digit : first < 16) (small : low < 256) :
    lowWord (byteWord first x low) = 0x1000 * first + 0x100 * x.val + low := by
  have inside := x.isLt
  unfold lowWord byteWord
  omega

theorem family_byteWord (digit : first < 16) (small : low < 256) :
    (family (byteWord first x low)).val = first := by
  have inside := x.isLt
  change lowWord (byteWord first x low) / 0x1000 % 16 = first
  rw [lowWord_byteWord digit small]
  omega

theorem xOf_byteWord (digit : first < 16) (small : low < 256) : xOf (byteWord first x low) = x := by
  have inside := x.isLt
  apply Fin.ext
  change lowWord (byteWord first x low) / 0x100 % 16 = x.val
  rw [lowWord_byteWord digit small]
  omega

theorem lowByte_byteWord (digit : first < 16) (small : low < 256) :
    (lowByte (byteWord first x low)).val = low := by
  change lowWord (byteWord first x low) % 256 = low
  rw [lowWord_byteWord digit small]
  omega

theorem byte_of_digits (y : Register) (digit : last < 16) : 0x10 * y.val + last < 256 := by
  have inside := y.isLt
  omega

theorem yOf_pairWord (digit : first < 16) (small : last < 16) : yOf (pairWord first x y last) = y := by
  have inside := y.isLt
  apply Fin.ext
  change lowWord (byteWord first x (0x10 * y.val + last)) / 0x10 % 16 = y.val
  rw [lowWord_byteWord digit (byte_of_digits y small)]
  omega

theorem lastNibble_pairWord (digit : first < 16) (small : last < 16) :
    (lastNibble (pairWord first x y last)).val = last := by
  change lowWord (byteWord first x (0x10 * y.val + last)) / 1 % 16 = last
  rw [lowWord_byteWord digit (byte_of_digits y small)]
  omega

theorem xOf_pairWord (digit : first < 16) (small : last < 16) : xOf (pairWord first x y last) = x :=
  xOf_byteWord digit (byte_of_digits y small)

theorem family_pairWord (digit : first < 16) (small : last < 16) :
    (family (pairWord first x y last)).val = first :=
  family_byteWord digit (byte_of_digits y small)

/-- An instruction of a register and a byte has a word with them. -/
theorem spells_byteWord {make : Register → Fin 256 → Instruction} (digit : first < 16)
    (spelled : ∀ {word}, (Opcode.family first).Covers word → Spells word (make (xOf word) (lowByte word)))
    (x : Register) (value : Fin 256) : Spells (byteWord first x value) (make x value) := by
  have spells := @spelled (byteWord first x value) (family_byteWord digit value.isLt)
  rwa [xOf_byteWord digit value.isLt, Fin.ext (lowByte_byteWord digit value.isLt)] at spells

theorem spells_put (x : Register) (value : Fin 256) : Spells (byteWord 0x6 x value) (.put x value) :=
  spells_byteWord (by decide) .put x value

theorem spells_add (x : Register) (value : Fin 256) : Spells (byteWord 0x7 x value) (.add x value) :=
  spells_byteWord (by decide) .add x value

/-- An instruction of a register whose opcode shares the first digit and the byte has a word with them. -/
theorem spells_closing {make : Register → Instruction} (digit : first < 16) (small : low < 256)
    (spelled : ∀ {word}, (Opcode.closing first low).Covers word → Spells word (make (xOf word)))
    (x : Register) : Spells (byteWord first x low) (make x) := by
  have spells := @spelled (byteWord first x low) ⟨family_byteWord digit small, lowByte_byteWord digit small⟩
  rwa [xOf_byteWord digit small] at spells

theorem spells_findGlyph (x : Register) : Spells (byteWord 0xf x 0x29) (.findGlyph x) :=
  spells_closing (by decide) (by decide) .findGlyph x

theorem spells_storeDigits (x : Register) : Spells (byteWord 0xf x 0x33) (.storeDigits x) :=
  spells_closing (by decide) (by decide) .storeDigits x

theorem spells_storeRegisters (x : Register) : Spells (byteWord 0xf x 0x55) (.storeRegisters x) :=
  spells_closing (by decide) (by decide) .storeRegisters x

theorem spells_loadRegisters (x : Register) : Spells (byteWord 0xf x 0x65) (.loadRegisters x) :=
  spells_closing (by decide) (by decide) .loadRegisters x

theorem spells_draw (x y : Register) (rows : Fin 16) :
    Spells (pairWord 0xd x y rows) (.draw x y rows) := by
  have digit : 0xd < 16 := by decide
  have spells := Spells.draw (show (Opcode.family 0xd).Covers (pairWord 0xd x y rows) from
    family_pairWord digit rows.isLt)
  rwa [xOf_pairWord digit rows.isLt, yOf_pairWord digit rows.isLt,
    Fin.ext (lastNibble_pairWord digit rows.isLt)] at spells

end Instruction

namespace Operation

open Instruction (Spells)

/-- The word that asks for an operation on two registers. -/
def word (operation : Operation) (x y : Register) : Int :=
  Instruction.pairWord 0x8 x y operation.digit

theorem digit_lt (operation : Operation) : operation.digit < 16 := by
  cases operation <;> decide

theorem spells_word (operation : Operation) (x y : Register) :
    Spells (operation.word x y) (.combine operation x y) := by
  have digit : 0x8 < 16 := by decide
  have spells := Spells.combine operation
    (show (Opcode.ending 0x8 operation.digit).Covers (operation.word x y) from
      ⟨Instruction.family_pairWord digit operation.digit_lt,
        Instruction.lastNibble_pairWord digit operation.digit_lt⟩)
  unfold word at spells ⊢
  rwa [Instruction.xOf_pairWord digit operation.digit_lt,
    Instruction.yOf_pairWord digit operation.digit_lt] at spells

end Operation

end ChipEight
