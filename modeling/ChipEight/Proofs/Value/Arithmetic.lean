/-
This file compares whole numbers among values.
-/

import ChipEight.Value.Arithmetic

namespace ChipEight.Value

theorem oneUnits_pos : (0 : Int) < Double.oneUnits := by
  have powers (power : Nat) : 0 < Nat.pow 2 power := Nat.pow_pos Nat.two_pos
  unfold Double.oneUnits
  exact Int.natCast_pos.mpr (powers Double.unitPower)

/-- Whole numbers are compared as such. -/
theorem less_int (first second : Int) :
    (Value.int first).less (.int second) = .ok (decide (first < second)) := by
  change Except.ok (decide (first * Double.oneUnits < second * Double.oneUnits)) = _
  rw [decide_eq_decide.mpr (Int.mul_lt_mul_right oneUnits_pos)]

theorem same_int (first second : Int) : (Value.int first).same (.int second) = decide (first = second) := by
  change decide (first * Double.oneUnits = second * Double.oneUnits) = _
  rw [decide_eq_decide.mpr (Int.mul_eq_mul_right_iff (Int.ne_of_gt oneUnits_pos))]

theorem greater_int (first second : Int) :
    (Value.int first).greater (.int second) = .ok (.int (max first second)) := by
  unfold greater
  rw [less_int]
  change Except.ok (if decide (first < second) = true then _ else _) = _
  rcases Int.lt_or_le first second with less | most
  · simp [less, Int.max_eq_right (Int.le_of_lt less)]
  · simp [Int.not_lt.mpr most, Int.max_eq_left most]

/-- The nearest number with a binary point, by any name for how numbers are rounded. Rounding itself is
too much to be worked out. -/
theorem toDouble_by {round : Int → Option Double} (rounds : Double.ofInt? = round) {value : Value}
    {number : Int} {rounded : Double} (other : ∀ broken, value ≠ .float broken)
    (whole : value.whole? = some number) :
    value.toDouble = .ok rounded ↔ round number = some rounded := by
  unfold toDouble
  rw [rounds]
  split
  case h_1 broken => exact absurd rfl (other broken)
  case h_2 =>
    rw [whole]
    dsimp only
    cases round number <;> simp

/-- A whole number has a nearest number with a binary point, or is too large for one. -/
theorem toDouble_int {number : Int} {rounded : Double} :
    (Value.int number).toDouble = .ok rounded ↔ Double.ofInt? number = some rounded :=
  toDouble_by rfl nofun rfl

end ChipEight.Value
