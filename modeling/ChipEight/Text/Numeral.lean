/-
This file reads whole numbers as users write them: with a sign, with digits of any script, with
single underscores between digits, and, in literals, with a mark for the base.
-/

import ChipEight.Text.Blank
import ChipEight.Text.Digit
import ChipEight.Text.Hex

namespace ChipEight.Numeral

/-- White space around a number; the four separators of the control characters are not allowed. -/
def isMargin (character : Char) : Bool :=
  Text.isBlank character && !(28 ≤ character.toNat && character.toNat ≤ 31)

/-- A digit of another script becomes the plain digit of the same value. -/
def plainDigit (character : Char) : Char :=
  match Text.digitValue? character with
  | some value => Char.ofNat (48 + value)
  | none => character

/-- The characters of a number without the margin and with plain digits. -/
def trimmed (text : String) : List Char :=
  let inner := (text.toList.dropWhile isMargin).reverse.dropWhile isMargin
  inner.reverse.map plainDigit

def digit? (base : Nat) (character : Char) : Option Nat :=
  (Hex.digitValue? character).filter fun value => value < base

/-- Why a text is no number. -/
inductive Problem where
  | malformed
  | manyDigits (count : Nat)
  deriving DecidableEq, Repr

/-- Digits at the start of a text: one or more, with a single underscore between two of them where one
is wanted, and what follows them. -/
def splitRun (base : Nat) (characters : List Char) : List Char × List Char :=
  let isPart (character : Char) : Bool := character == '_' || (digit? base character).isSome
  (characters.takeWhile isPart, characters.dropWhile isPart)

/-- No underscore is first, last, or next to another one. -/
def isSpaced : List Char → Bool
  | [] => false
  | ['_'] => false
  | [_] => true
  | '_' :: '_' :: _ => false
  | _ :: next :: rest => isSpaced (next :: rest)

/-- The value of digits; underscores do not count. -/
def value (base : Nat) (digits : List Char) : Nat :=
  digits.foldl
    (fun sum character => match digit? base character with
      | some next => base * sum + next
      | none => sum)
    0

/-- More decimal digits than this are neither read nor shown. -/
def longestDecimal : Nat := 4300

/-- The first number that is too long to be shown. -/
def firstUnshown : Nat := Nat.pow 10 longestDecimal

/-- The value of a text of digits. Only in base ten is their count limited, since the others are read
in one pass. -/
def digits (base : Nat) (characters : List Char) : Except Problem Nat :=
  let (run, rest) := splitRun base characters
  let count := (run.filter fun character => character != '_').length
  if run.head? == some '_' || !isSpaced run then .error .malformed
  else if base == 10 && longestDecimal < count then .error (.manyDigits count)
  else if !rest.isEmpty then .error .malformed
  else .ok (value base run)

def signed (magnitude : List Char → Except Problem Nat) : List Char → Except Problem Int
  | '-' :: rest => (magnitude rest).map fun value => -(value : Int)
  | '+' :: rest => (magnitude rest).map Int.ofNat
  | rest => (magnitude rest).map Int.ofNat

/-- The number that a text of decimal digits stands for. -/
def decimal (text : String) : Except Problem Int :=
  signed (digits 10) (trimmed text)

/-- The digits after a mark for the base, which one underscore may follow. -/
def marked (base : Nat) : List Char → Except Problem Nat
  | '_' :: rest => digits base rest
  | rest => digits base rest

/-- Without a mark for the base, only the number zero may start with the digit zero. -/
def literalMagnitude : List Char → Except Problem Nat
  | '0' :: 'x' :: rest => marked 16 rest
  | '0' :: 'X' :: rest => marked 16 rest
  | '0' :: 'o' :: rest => marked 8 rest
  | '0' :: 'O' :: rest => marked 8 rest
  | '0' :: 'b' :: rest => marked 2 rest
  | '0' :: 'B' :: rest => marked 2 rest
  | '0' :: rest =>
      match digits 10 ('0' :: rest) with
      | .ok 0 => .ok 0
      | .ok _ => .error .malformed
      | .error problem => .error problem
  | rest => digits 10 rest

/-- The number that a literal stands for, in base ten unless it says otherwise. -/
def literal (text : String) : Except Problem Int :=
  signed literalMagnitude (trimmed text)

end ChipEight.Numeral
