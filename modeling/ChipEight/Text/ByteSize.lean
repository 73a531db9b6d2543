/-
This file writes counts of bytes in units of 1024 bytes, of 1024 of those, and so on. A size has three
digits, or more where they all stand before its point.
-/

import ChipEight.Double

namespace ChipEight.Text.ByteSize

/-- The units beyond single bytes, each 1024 of the one before it. -/
def unitNames : List String := ["KiB", "MiB", "GiB", "TiB", "PiB", "EiB"]

/-- So many units are one of the next. -/
def step : Nat := 1024

/-- The bytes in the unit of a place, single bytes being the first. -/
def unit (place : Nat) : Nat := Nat.pow step place

/-- The place of the largest unit of which a count has at least one, also after it is rounded. -/
def placeOf (count : Nat) : Nat :=
  let below := Nat.log2 count / 10
  if roundedQuotient count (unit below) == step then below + 1 else below

/-- A quotient with three digits, or with all digits before its point. -/
def quotientText (count parts : Nat) : String :=
  let hundredths := roundedQuotient (100 * count) parts
  let tenths := roundedQuotient (10 * count) parts
  if hundredths < 1000 then
    toString (hundredths / 100) ++ "." ++ toString (hundredths / 10 % 10) ++
      toString (hundredths % 10)
  else if tenths < 1000 then toString (tenths / 10) ++ "." ++ toString (tenths % 10)
  else toString (roundedQuotient count parts) ++ "."

/-- A count of bytes. Beyond the largest unit its number grows. -/
def text (count : Nat) : String :=
  match placeOf count with
  | 0 => toString count ++ " bytes"
  | place + 1 =>
      let index := min place (unitNames.length - 1)
      quotientText count (unit (index + 1)) ++ " " ++ unitNames.getD index ""

end ChipEight.Text.ByteSize
