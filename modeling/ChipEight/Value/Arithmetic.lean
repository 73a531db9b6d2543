/-
This file computes with numbers among values. Whole numbers are exact. Where a number with a binary
point takes part, the other is rounded to one first.
-/

import ChipEight.Fault
import ChipEight.Value

namespace ChipEight.Value

/-- The number with a binary point nearest to a number. -/
def toDouble (value : Value) : Except Fault Double :=
  match value with
  | .float number => .ok number
  | other =>
      match other.whole? with
      | none => .error .wrongKind
      | some number =>
          match Double.ofInt? number with
          | some rounded => .ok rounded
          | none => .error .tooLarge

/-- The difference of two numbers. -/
def minus (first second : Value) : Except Fault Value :=
  match first.whole?, second.whole? with
  | some here, some there => .ok (.int (here - there))
  | _, _ =>
      match first.place?, second.place? with
      | some _, some _ => do
          pure (.float ((← first.toDouble).sub (← second.toDouble)))
      | _, _ => .error .wrongKind

/-- The product of two numbers. -/
def times (first second : Value) : Except Fault Value :=
  match first.whole?, second.whole? with
  | some here, some there => .ok (.int (here * there))
  | _, _ =>
      match first.place?, second.place? with
      | some _, some _ => do
          pure (.float ((← first.toDouble).mul (← second.toDouble)))
      | _, _ => .error .wrongKind

/-- The number after the next step of one. -/
def successor (value : Value) : Except Fault Value :=
  value.minus (.int (-1))

/-- The absolute value of the difference of two numbers. -/
def distance (first second : Value) : Except Fault Value := do
  match ← first.minus second with
  | .int number => pure (.int number.natAbs)
  | .float number => pure (.float number.abs)
  | other => pure other

/-- Numbers are ordered by value and texts by the numbers of their characters. -/
def less (first second : Value) : Except Fault Bool :=
  match first, second with
  | .text here, .text there => .ok (here < there)
  | _, _ =>
      match first.place?, second.place? with
      | some here, some there => .ok (here.less there)
      | _, _ => .error .wrongKind

/-- One number is a whole multiple of another, which is positive. -/
def isMultiple (value divisor : Value) : Except Fault Bool :=
  match value.whole?, divisor.whole? with
  | some number, some step => .ok (number % step == 0)
  | _, _ =>
      match value.place?, divisor.place? with
      | some _, some _ => do
          pure ((← value.toDouble).isMultiple (← divisor.toDouble))
      | _, _ => .error .wrongKind

/-- The greater of two numbers, and of equal ones the first. -/
def greater (first second : Value) : Except Fault Value := do
  pure (if ← first.less second then second else first)

end ChipEight.Value
