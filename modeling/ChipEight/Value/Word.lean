/-
This file takes words of a fixed count of bits from values.
-/

import ChipEight.Fault
import ChipEight.Text.Numeral

namespace ChipEight.Value

/-- The whole number of a value. Texts are read, and what is below one is dropped. -/
def integer (value : Value) : Except Fault Int :=
  match value with
  | .float number =>
      if number.isNan then .error (.unfit .notWhole)
      else if number.isFinite then .ok number.truncate
      else .error .tooLarge
  | .text characters =>
      match Numeral.decimal characters with
      | .ok number => .ok number
      | .error .malformed => .error (.unfit (.notNumber characters))
      | .error (.manyDigits count) => .error (.unfit (.manyDigits count))
  | other =>
      match other.whole? with
      | some number => .ok number
      | none => .error .wrongKind

/-- A value as a word, if it fits. -/
def word (bits : Nat) (value : Value) : Except Fault Nat := do
  let number ← value.integer
  if 0 ≤ number ∧ number < Nat.pow 2 bits then .ok number.toNat else .error .tooLarge

theorem wordInt {bits : Nat} {number : Nat} (fits : number < Nat.pow 2 bits) :
    word bits (.int number) = .ok number := by
  simp only [word, integer, whole?, bind, Except.bind, Int.natCast_nonneg, Int.ofNat_lt, fits, and_self,
    if_true, Int.toNat_natCast]

end ChipEight.Value
