/-
This file holds numbers with a binary point in sixty-four bits. Every finite one is a whole number
of units of two to the power -1074, so sums and comparisons are exact until the last rounding, which
takes the nearest number and, of two, the even one.
-/

namespace ChipEight

/-- A number by its bits: a sign, eleven bits of exponent, and fifty-two bits of fraction. -/
structure Double where
  bits : UInt64
  deriving DecidableEq, Repr

/-- The quotient rounded to the nearest whole number; a half goes to the even neighbour. -/
def roundedQuotient (numerator denominator : Nat) : Nat :=
  let quotient := numerator / denominator
  let twice := 2 * (numerator % denominator)
  if denominator < twice || (twice == denominator && quotient % 2 == 1) then quotient + 1
  else quotient

namespace Double

/-- The power of two of the smallest unit. -/
def unitPower : Nat := 1074

/-- The units in the number one. -/
def oneUnits : Nat := Nat.pow 2 unitPower

/-- The count of fractions that share an exponent. -/
def fractionCount : Nat := Nat.pow 2 52

def infinityBits : Nat := 0x7ff * fractionCount

def signBit : Nat := Nat.pow 2 63

def ofParts (negative : Bool) (magnitude : Nat) : Double :=
  ⟨UInt64.ofNat ((if negative then signBit else 0) + min magnitude infinityBits)⟩

def isNegative (number : Double) : Bool :=
  signBit ≤ number.bits.toNat

/-- The bits without the sign. -/
def magnitudeBits (number : Double) : Nat :=
  number.bits.toNat % signBit

def isFinite (number : Double) : Bool :=
  number.magnitudeBits < infinityBits

def isNan (number : Double) : Bool :=
  infinityBits < number.magnitudeBits

/-- The significand and the count of doublings of the unit of the absolute value. -/
def significand (number : Double) : Nat × Nat :=
  let exponent := number.magnitudeBits / fractionCount
  let fraction := number.magnitudeBits % fractionCount
  if exponent == 0 then (fraction, 0) else (fractionCount + fraction, exponent - 1)

/-- The absolute value of a finite number in units. -/
def magnitudeUnits (number : Double) : Nat :=
  number.significand.1 * Nat.pow 2 number.significand.2

/-- The value of a finite number in units. -/
def units (number : Double) : Int :=
  if number.isNegative then -(number.magnitudeUnits : Int) else number.magnitudeUnits

/-- The count of doublings of the unit that leaves at most fifty-three bits of `whole` units. -/
def doublings (whole : Nat) : Nat :=
  Nat.log2 whole - 52

/-- The number nearest to a fraction of units. -/
def ofUnits (negative : Bool) (numerator denominator : Nat) : Double :=
  let steps := doublings (numerator / denominator)
  ofParts negative (steps * fractionCount + roundedQuotient numerator (denominator * Nat.pow 2 steps))

/-- The number nearest to a fraction. -/
def ofFraction (negative : Bool) (numerator denominator : Nat) : Double :=
  ofUnits negative (numerator * oneUnits) denominator

/-- The number nearest to `digits` times ten to the power `exponent`. Far from all numbers, the
exponent alone decides. -/
def ofDecimal (negative : Bool) (digits : Nat) (exponent : Int) : Double :=
  let length : Int := (Nat.log2 digits : Int) * 3 / 10
  if digits == 0 || exponent + length < -400 then ofParts negative 0
  else if 400 < exponent + length then ofParts negative infinityBits
  else if 0 ≤ exponent then ofFraction negative (digits * Nat.pow 10 exponent.toNat) 1
  else ofFraction negative digits (Nat.pow 10 (-exponent).toNat)

/-- The number nearest to a whole number, unless that lies beyond all finite ones. -/
def ofInt? (value : Int) : Option Double :=
  let number := ofFraction (value < 0) value.natAbs 1
  if number.isFinite then some number else none

def zero : Double := ⟨0⟩

def one : Double := ⟨0x3ff0000000000000⟩

/-- The whole part of a finite number, toward zero. -/
def truncate (number : Double) : Int :=
  let whole := number.magnitudeUnits / oneUnits
  if number.isNegative then -(whole : Int) else whole

/-- A finite number without a part below one. -/
def isWhole (number : Double) : Bool :=
  number.isFinite && number.magnitudeUnits % oneUnits == 0

def isZero (number : Double) : Bool :=
  number.magnitudeBits == 0

/-- No number at all, the result of a difference of infinities. -/
def nan : Double := ⟨0x7ff8000000000000⟩

/-- The number of the same size with a sign. -/
def withSign (negative : Bool) (number : Double) : Double :=
  if number.isNan then nan else ofParts negative number.magnitudeBits

def abs (number : Double) : Double := withSign false number

/-- The number with the other sign. -/
def neg (number : Double) : Double := withSign (!number.isNegative) number

/-- The difference of two numbers. -/
def sub (first second : Double) : Double :=
  if first.isNan || second.isNan then nan
  else if !first.isFinite && !second.isFinite && first.isNegative == second.isNegative then nan
  else if !first.isFinite then first
  else if !second.isFinite then ofParts (!second.isNegative) infinityBits
  else
    let difference := first.units - second.units
    ofUnits (difference < 0 || (difference == 0 && first.isNegative && !second.isNegative))
      difference.natAbs 1

/-- The sum of two numbers. -/
def add (first second : Double) : Double :=
  first.sub second.neg

/-- One number is a whole multiple of another. Zero is one of every number but zero, and of an infinite
number nothing else is. -/
def isMultiple (number step : Double) : Bool :=
  if number.isNan || step.isNan || !number.isFinite || step.isZero then false
  else if !step.isFinite then number.isZero
  else number.units % step.units == 0

/-- The product of two numbers. -/
def mul (first second : Double) : Double :=
  let negative := first.isNegative != second.isNegative
  if first.isNan || second.isNan then nan
  else if !first.isFinite || !second.isFinite then
    if first.isZero || second.isZero then nan else ofParts negative infinityBits
  else ofUnits negative (first.magnitudeUnits * second.magnitudeUnits) oneUnits

end Double

/-- A place on the line of numbers, in units; nothing is before or after `nowhere`. -/
inductive Place where
  | below
  | at (units : Int)
  | above
  | nowhere

namespace Place

def ofInt (value : Int) : Place := .at (value * Double.oneUnits)

def ofDouble (number : Double) : Place :=
  if number.isNan then .nowhere
  else if number.isFinite then .at number.units
  else if number.isNegative then .below
  else .above

def same : Place → Place → Bool
  | .at first, .at second => first == second
  | .below, .below => true
  | .above, .above => true
  | _, _ => false

def less : Place → Place → Bool
  | .at first, .at second => first < second
  | .below, .at _ => true
  | .below, .above => true
  | .at _, .above => true
  | _, _ => false

end Place

end ChipEight
