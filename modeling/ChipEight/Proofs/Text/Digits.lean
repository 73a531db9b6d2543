/-
This file says what the digits of a whole number are: filled with zeros to a width they are its digits
from the highest place of that width on, and in base ten their value is the number.
-/

import ChipEight.Text.Hex
import Mathlib.Algebra.GroupWithZero.Nat

namespace ChipEight.Text

/-- The digits of a number at so many places, the lowest place last. -/
def placed (base : Nat) : Nat → Nat → List Char
  | 0, _ => []
  | width + 1, number => placed base width (number / base) ++ [(number % base).digitChar]

theorem placed_zero (base width : Nat) : placed base width 0 = List.replicate width '0' := by
  induction width with
  | zero => rfl
  | succ width ih => simp [placed, ih, List.replicate_succ']

theorem length_placed (base width number : Nat) : (placed base width number).length = width := by
  induction width generalizing number with
  | zero => rfl
  | succ width ih => rw [placed, List.length_append, ih, List.length_singleton]

theorem mem_placed {base width number : Nat} (positive : 0 < base) {digit : Char}
    (member : digit ∈ placed base width number) : ∃ value < base, digit = value.digitChar := by
  induction width generalizing number with
  | zero => cases member
  | succ width ih =>
      rcases List.mem_append.mp member with before | last
      · exact ih before
      · exact ⟨number % base, Nat.mod_lt _ positive, List.mem_singleton.mp last⟩

/-- Digits that are filled up with zeros stand at their places. -/
theorem filled_toDigits {base width number : Nat} (more : 1 < base) (fits : number < base ^ width)
    (wide : 0 < width) :
    List.replicate (width - (base.toDigits number).length) '0' ++ base.toDigits number =
      placed base width number := by
  induction width generalizing number with
  | zero => exact absurd wide (Nat.lt_irrefl 0)
  | succ width ih =>
      rw [Nat.toDigits_eq_if more, placed]
      split
      case isTrue single =>
        rw [Nat.div_eq_of_lt single, Nat.mod_eq_of_lt single, placed_zero]
        simp
      case isFalse several =>
        have fewer : number / base < base ^ width := by
          rw [Nat.div_lt_iff_lt_mul (by omega), ← Nat.pow_succ]
          exact fits
        have positive : 0 < width := by
          rcases Nat.eq_zero_or_pos width with rfl | positive
          · rw [Nat.pow_one] at fits
            omega
          · exact positive
        rw [← ih fewer positive]
        simp [Nat.add_sub_add_right]

theorem mem_toDigits {base number : Nat} (more : 1 < base) {digit : Char}
    (member : digit ∈ base.toDigits number) : ∃ value < base, digit = value.digitChar := by
  induction number using Nat.strongRecOn with
  | ind number ih =>
      rw [Nat.toDigits_eq_if more] at member
      split at member
      case isTrue single => exact ⟨number, single, List.mem_singleton.mp member⟩
      case isFalse several =>
        rcases List.mem_append.mp member with before | last
        · exact ih (number / base) (Nat.div_lt_self (by omega) more) before
        · exact ⟨number % base, Nat.mod_lt _ (by omega), List.mem_singleton.mp last⟩

/-! ### Base ten -/

/-- A whole number is written with its sign and its digits. -/
theorem toList_toString (number : Int) : (toString number).toList =
    (if number < 0 then ['-'] else []) ++ Nat.toDigits 10 number.natAbs := by
  cases number <;> simp [toString, Int.repr, Nat.repr]

/-- In a whole number there are a sign and digits only. -/
theorem mem_toString {number : Int} {character : Char} (member : character ∈ (toString number).toList) :
    character = '-' ∨ ∃ value < 10, character = value.digitChar := by
  rw [toList_toString] at member
  rcases List.mem_append.mp member with sign | digit
  · split at sign
    · exact .inl (List.mem_singleton.mp sign)
    · exact nomatch sign
  · exact .inr (mem_toDigits (by decide) digit)

/-! ### Base sixteen -/

theorem lower_upper_digit :
    ∀ digit : Fin 16, digit.val.digitChar.toUpper.toLower = digit.val.digitChar := by
  decide

theorem digitValue_lower :
    ∀ digit : Fin 16, Hex.digitValue? digit.val.digitChar = some digit.val := by
  decide

theorem digitValue_upper :
    ∀ digit : Fin 16, Hex.digitValue? digit.val.digitChar.toUpper = some digit.val := by
  decide

/-- A number filled to a width. -/
theorem padded_upper {width number : Nat} (fits : number < 16 ^ width) (wide : 0 < width) :
    (Hex.padded width number).toList = (placed 16 width number).map Char.toUpper := by
  have positive : ¬ (number : Int) < 0 := by omega
  rw [← filled_toDigits (by decide) fits wide]
  simp [Hex.padded, Hex.digits, positive]

/-- A number filled to a width in lower case. -/
theorem padded_lower {width number : Nat} (fits : number < 16 ^ width) (wide : 0 < width) :
    (Hex.padded width number).toList.map Char.toLower = placed 16 width number := by
  rw [padded_upper fits wide, List.map_map]
  refine (List.map_congr_left fun digit member => ?_).trans (List.map_id _)
  obtain ⟨value, small, rfl⟩ := mem_placed (by decide) member
  exact lower_upper_digit ⟨value, small⟩

end ChipEight.Text
