/-
This file holds halves of pairs: the numbers from D800 up to DFFF, which stand for a character only two
by two. A half that stands alone in a text has no character of its own, so each has one in its place
from the middle of the characters that are left to private use. Those characters themselves are not told from
the halves that they are in place of.
-/

namespace ChipEight.Text.Half

def lowest : Nat := 0xd800

/-- The first number after those of the halves. -/
def limit : Nat := 0xe000

/-- The number of the character in place of the lowest half. -/
def place : Nat := 0x10a000

def isHalf (code : Nat) : Bool :=
  lowest ≤ code && code < limit

/-- The character of a number. -/
def character (code : Nat) : Char :=
  Char.ofNat (if isHalf code then code - lowest + place else code)

/-- The number of a character, or of the half that it is in place of. -/
def code (character : Char) : Nat :=
  if place ≤ character.toNat ∧ character.toNat < place + (limit - lowest) then
    character.toNat - place + lowest
  else character.toNat

/-- A half of a pair that stands alone in a text. -/
def standsAlone (character : Char) : Bool := isHalf (code character)

/-- Where the first halves that stand alone are in a text, and where what comes after them is. -/
def alone? (text : String) : Option (Nat × Nat) :=
  (text.toList.findIdx? standsAlone).map fun start =>
    (start, start + ((text.toList.drop start).takeWhile standsAlone).length)

theorem standsAlone_small {character : Char} (small : character.toNat < lowest) :
    standsAlone character = false := by
  have stays : code character = character.toNat := by
    refine if_neg fun bounds => absurd bounds.1 (Nat.not_le.mpr (Nat.lt_trans small ?_))
    unfold lowest place
    decide
  unfold standsAlone isHalf
  rw [stays, decide_eq_false (Nat.not_le.mpr small), Bool.false_and]

theorem codeCharacter {number : Nat} (half : isHalf number = true) :
    code (character number) = number := by
  have bounds : lowest ≤ number ∧ number < limit := by
    simpa [isHalf] using half
  unfold lowest limit at bounds
  have valid : (number - lowest + place).isValidChar := by
    unfold lowest place
    exact Or.inr ⟨by omega, by omega⟩
  have stays : (Char.ofNat (number - lowest + place)).toNat = number - lowest + place :=
    congrArg Char.toNat (dif_pos valid)
  unfold code character
  rw [if_pos half, stays]
  unfold lowest limit place
  rw [if_pos (by omega)]
  omega

end ChipEight.Text.Half
