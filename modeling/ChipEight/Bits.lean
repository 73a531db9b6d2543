/-
This file combines whole numbers bit by bit. A negative number has endless ones above its bits, so it
stands for the number below its absolute value with all bits turned over. Words of a fixed width with
a sign hold the numbers on both sides of zero.
-/

namespace ChipEight.Bits

/-- The bits of the first number where the second has none. -/
def without (first second : Nat) : Nat :=
  first ^^^ (first &&& second)

def and : Int → Int → Int
  | .ofNat first, .ofNat second => .ofNat (first &&& second)
  | .ofNat first, .negSucc second => .ofNat (without first second)
  | .negSucc first, .ofNat second => .ofNat (without second first)
  | .negSucc first, .negSucc second => .negSucc (first ||| second)

def or : Int → Int → Int
  | .ofNat first, .ofNat second => .ofNat (first ||| second)
  | .ofNat first, .negSucc second => .negSucc (without second first)
  | .negSucc first, .ofNat second => .negSucc (without first second)
  | .negSucc first, .negSucc second => .negSucc (first &&& second)

def xor : Int → Int → Int
  | .ofNat first, .ofNat second => .ofNat (first ^^^ second)
  | .ofNat first, .negSucc second => .negSucc (first ^^^ second)
  | .negSucc first, .ofNat second => .negSucc (first ^^^ second)
  | .negSucc first, .negSucc second => .ofNat (first ^^^ second)

/-- A number that a word of `width` bits holds, where one of them is the sign. -/
def isSigned (width : Nat) (number : Int) : Bool :=
  -(Nat.pow 2 (width - 1)) ≤ number && number < Nat.pow 2 (width - 1)

/-- The number that such a word holds in place of another one. -/
def signed (width : Nat) (number : Int) : Int :=
  (number + Nat.pow 2 (width - 1)) % Nat.pow 2 width - Nat.pow 2 (width - 1)

end ChipEight.Bits
