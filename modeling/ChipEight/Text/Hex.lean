/-
This file writes whole numbers and byte strings in base sixteen, and reads byte strings back.
-/

namespace ChipEight.Hex

/-- The upper-case digit of a number below sixteen. -/
def digit (value : Nat) : Char :=
  if value < 10 then Char.ofNat (48 + value) else Char.ofNat (55 + value)

/-- The value of a digit of either case. -/
def digitValue? (character : Char) : Option Nat :=
  if '0' ≤ character ∧ character ≤ '9' then some (character.toNat - 48)
  else if 'a' ≤ character ∧ character ≤ 'f' then some (character.toNat - 87)
  else if 'A' ≤ character ∧ character ≤ 'F' then some (character.toNat - 55)
  else none

/-- The digits of a number, most significant first, without leading zeros. -/
def digits (number : Nat) : List Char :=
  (Nat.toDigits 16 number).map Char.toUpper

/-- A number with a sign if negative, filled with zeros after the sign up to `width` characters. -/
def padded (width : Nat) (number : Int) : String :=
  let sign := if number < 0 then ['-'] else []
  let body := digits number.natAbs
  String.ofList (sign ++ List.replicate (width - sign.length - body.length) '0' ++ body)

/-- The two upper-case digits of a byte. -/
def byte (value : UInt8) : List Char :=
  [digit (value.toNat / 16), digit (value.toNat % 16)]

/-- A byte string as lower-case digits, two for each byte. -/
def ofBytes (bytes : List UInt8) : String :=
  String.ofList (bytes.flatMap fun value => (byte value).map Char.toLower)

/-- The bytes that pairs of digits stand for. -/
def bytesOfDigits : List Char → Option (List UInt8)
  | [] => some []
  | [_] => none
  | high :: low :: rest => do
      let first ← digitValue? high
      let second ← digitValue? low
      let others ← bytesOfDigits rest
      pure (UInt8.ofNat (16 * first + second) :: others)

/-- The byte string that a text of digits stands for. -/
def toBytes? (text : String) : Option (List UInt8) :=
  bytesOfDigits text.toList

theorem byteLength (value : UInt8) : (byte value).length = 2 := rfl

theorem digitValueDigit : ∀ value : Fin 16, digitValue? (digit value.val) = some value.val := by
  decide

/-- Each byte is read back from its two digits. -/
theorem bytesOfDigitsByte (value : UInt8) (rest : List Char) :
    bytesOfDigits (byte value ++ rest) = (bytesOfDigits rest).map (value :: ·) := by
  have small : value.toNat < 256 := value.toNat_lt
  have first := digitValueDigit ⟨value.toNat / 16, by omega⟩
  have second := digitValueDigit ⟨value.toNat % 16, by omega⟩
  have whole : UInt8.ofNat (16 * (value.toNat / 16) + value.toNat % 16) = value := by
    rw [Nat.div_add_mod]
    simp
  simp only [byte, List.cons_append, List.nil_append, bytesOfDigits]
  simp only [first, second]
  cases bytesOfDigits rest with
  | none => rfl
  | some others =>
      change some (UInt8.ofNat (16 * (value.toNat / 16) + value.toNat % 16) :: others) =
        some (value :: others)
      rw [whole]

end ChipEight.Hex
