/-
This file writes a number with the fewest digits that still stand for it and for no other number.
-/

import ChipEight.Double

namespace ChipEight.Double

/-- The real numbers that round to a positive number, in quarters of its smallest step. The ends
belong to it if the significand is even. -/
structure Interval where
  low : Nat
  middle : Nat
  high : Nat
  closed : Bool

/-- The interval of a positive number, in quarters of its unit. -/
def interval (number : Double) : Interval :=
  let (whole, steps) := number.significand
  let scale := Nat.pow 2 steps
  let below := if whole == fractionCount && 0 < steps then 1 else 2
  ⟨(4 * whole - below) * scale, 4 * whole * scale, (4 * whole + 2) * scale, whole % 2 == 0⟩

/-- The fraction `numerator / denominator` lies in the interval, given in quarters of units. -/
def Interval.holds (range : Interval) (numerator denominator : Nat) : Bool :=
  if range.closed then
    range.low * denominator ≤ numerator && numerator ≤ range.high * denominator
  else range.low * denominator < numerator && numerator < range.high * denominator

/-- The count of decimal digits of a whole number. -/
def decimalLength (whole : Nat) : Nat :=
  (Nat.toDigits 10 whole).length

/-- The power of ten of the first digit of a positive fraction. -/
def leadingPower (numerator denominator : Nat) : Int :=
  if denominator ≤ numerator then (decimalLength (numerator / denominator) : Int) - 1
  else
    let inverse := (denominator + numerator - 1) / numerator
    Int.negOfNat (decimalLength (inverse - 1))

/-- The decimal of `count` digits that stands for the number, if one does: the nearest of the two
that are next to it. The exponent is the power of ten of the last digit. -/
def decimalOf? (range : Interval) (power : Int) (count : Nat) : Option (Nat × Int) :=
  let exponent := power - count + 1
  let raised := Nat.pow 10 exponent.toNat
  let divided := Nat.pow 10 (-exponent).toNat
  let quarters := 4 * oneUnits
  let numerator := range.middle * divided
  let denominator := quarters * raised
  let lower := numerator / denominator
  let fits (digits : Nat) := range.holds (digits * raised * quarters) divided
  let nearer :=
    if roundedQuotient numerator denominator == lower then [lower, lower + 1]
    else [lower + 1, lower]
  (nearer.find? fun digits => digits != 0 && fits digits).map fun digits => (digits, exponent)

/-- The shortest decimal that stands for a positive finite number. -/
def shortest (number : Double) : Nat × Int :=
  let range := number.interval
  let power := leadingPower range.middle (4 * oneUnits)
  ((List.range 17).findSome? fun index => decimalOf? range power (index + 1)).getD (0, 0)

/-- The digits without zeros at the end, and the place of the point counted from the first. -/
def pointed (digits : Nat) (exponent : Int) : List Char × Int :=
  let written := Nat.toDigits 10 digits
  let kept := (written.reverse.dropWhile fun character => character == '0').reverse
  (kept, exponent + written.length)

/-- An exponent has a sign and at least two digits. -/
def exponentText (power : Int) : List Char :=
  let digits := Nat.toDigits 10 power.natAbs
  (if power < 0 then '-' else '+') :: (List.replicate (2 - digits.length) '0' ++ digits)

/-- Numbers from 0.0001 up to 10^16 have no exponent, and then always a point. -/
def layout (digits : List Char) (point : Int) : List Char :=
  if -4 < point && point ≤ 0 then
    ['0', '.'] ++ List.replicate (-point).toNat '0' ++ digits
  else if 0 < point && point ≤ 16 then
    let place := point.toNat
    if digits.length ≤ place then
      digits ++ List.replicate (place - digits.length) '0' ++ ['.', '0']
    else digits.take place ++ '.' :: digits.drop place
  else
    let fraction := if digits.length ≤ 1 then [] else '.' :: digits.drop 1
    digits.take 1 ++ fraction ++ 'e' :: exponentText (point - 1)

/-- The shortest text that stands for the number. -/
def text (number : Double) : String :=
  if number.isNan then "nan"
  else
    let sign := if number.isNegative then ['-'] else []
    let body :=
      if !number.isFinite then ['i', 'n', 'f']
      else if number.isZero then ['0', '.', '0']
      else
        let (digits, exponent) := number.shortest
        let (kept, point) := pointed digits exponent
        layout kept point
    String.ofList (sign ++ body)

end ChipEight.Double
