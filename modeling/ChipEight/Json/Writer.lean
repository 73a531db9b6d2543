/-
This file writes values as JSON text: on one line for exchange, or in files with a line for each
item, two blanks for each depth, and plain characters only.
-/

import ChipEight.Text.Half
import ChipEight.Value.Text

namespace ChipEight.Json

/-- Four small digits of base sixteen after their mark. -/
def numbered (code : Nat) : List Char :=
  ['\x5c', 'u'] ++ (Hex.padded 4 code).toList.map Char.toLower

/-- A character beyond the sixteen-bit codes is written as the two halves of a pair. -/
def numberedPair (code : Nat) : List Char :=
  if code < 0x10000 then numbered code
  else
    let offset := code - 0x10000
    numbered (0xd800 + offset / 0x400) ++ numbered (0xdc00 + offset % 0x400)

def writtenCharacter (plain : Bool) (character : Char) : List Char :=
  if character == '\x22' then ['\x5c', '\x22']
  else if character == '\x5c' then ['\x5c', '\x5c']
  else if character == '\n' then ['\x5c', 'n']
  else if character == '\r' then ['\x5c', 'r']
  else if character == '\t' then ['\x5c', 't']
  else if character == '\x08' then ['\x5c', 'b']
  else if character == '\x0c' then ['\x5c', 'f']
  else
    let code := Text.Half.code character
    if code < 0x20 || Text.Half.isHalf code || (plain && 0x7f ≤ code) then numberedPair code
    else [character]

/-- A text between quotes; in plain form every character beyond the first 127 has its number. -/
def writtenText (plain : Bool) (text : String) : String :=
  String.ofList ('\x22' :: text.toList.flatMap (writtenCharacter plain) ++ ['\x22'])

def writtenNumber (number : Double) : String :=
  if number.isNan then "NaN"
  else if number.isFinite then number.text
  else if number.isNegative then "-Infinity"
  else "Infinity"

def writtenBool (flag : Bool) : String := if flag then "true" else "false"

/-- Every key is written as a text in files. -/
def keyText : Key → String
  | .text characters => characters
  | .null => "null"
  | .bool flag => writtenBool flag
  | .int number => toString number
  | .float number => writtenNumber number
  | .date day => day.text
  | .moment time => time.text

mutual
/-- A value on one line, with keys as messages show them. -/
def line : Value → String
  | .null => "null"
  | .bool flag => writtenBool flag
  | .int number => toString number
  | .float number => writtenNumber number
  | .date day => writtenText false day.text
  | .moment time => writtenText false time.text
  | .text characters => writtenText false characters
  | .list items => "[" ++ ",".intercalate (lineItems items) ++ "]"
  | .dict entries => "\x7b" ++ ",".intercalate (lineEntries entries) ++ "\x7d"

def lineItems : List Value → List String
  | [] => []
  | item :: rest => line item :: lineItems rest

def lineEntries : List (Key × Value) → List String
  | [] => []
  | (key, value) :: rest =>
      (writtenText false key.toValue.shown ++ ":" ++ line value) :: lineEntries rest
end

/-! Pages -/

/-- A part of a page, or why it cannot be written. -/
abbrev Piece := Except Fault String

/-- Numbers of too many digits are not shown. -/
def numberPiece (number : Int) : Piece :=
  if number.natAbs < Numeral.firstUnshown then .ok (toString number) else .error (.unfit .longNumber)

/-- Days and moments cannot be keys in files. -/
def keyPiece : Key → Piece
  | .int number => numberPiece number
  | .date _ => .error .wrongKind
  | .moment _ => .error .wrongKind
  | key => .ok (keyText key)

/-- A new line at a depth. -/
def margin (depth : Nat) : String :=
  "\n" ++ String.ofList (List.replicate (2 * depth) ' ')

/-- What stands before a part of a collection. -/
def separator (depth : Nat) (first : Bool) : String :=
  (if first then "" else ",") ++ margin depth

/-- Pieces between brackets, each on a line of its own, one step deeper than `depth`. -/
def block (opening closing : String) (depth : Nat) (pieces : List Piece) : List Piece :=
  if pieces.isEmpty then [.ok (opening ++ closing)]
  else .ok opening :: pieces ++ [.ok (margin depth ++ closing)]

mutual
/-- The pieces of a value over as many lines as it has items. Days and moments have no form of their
own. -/
def pieces (depth : Nat) : Value → List Piece
  | .null => [.ok "null"]
  | .bool flag => [.ok (writtenBool flag)]
  | .int number => [numberPiece number]
  | .float number => [.ok (writtenNumber number)]
  | .date _ => [.error .wrongKind]
  | .moment _ => [.error .wrongKind]
  | .text characters => [.ok (writtenText true characters)]
  | .list items => block "[" "]" depth (itemPieces (depth + 1) true items)
  | .dict entries => block "\x7b" "\x7d" depth (entryPieces (depth + 1) true entries)

/-- The pieces of items; a number comes with the separator before it. -/
def itemPieces (depth : Nat) (first : Bool) : List Value → List Piece
  | [] => []
  | .int number :: rest =>
      (numberPiece number).map (separator depth first ++ ·) :: itemPieces depth false rest
  | item :: rest =>
      .ok (separator depth first) :: pieces depth item ++ itemPieces depth false rest

/-- The pieces of entries; a key comes with the separator before it. -/
def entryPieces (depth : Nat) (first : Bool) : List (Key × Value) → List Piece
  | [] => []
  | (key, value) :: rest =>
      (keyPiece key).map (fun name => separator depth first ++ writtenText true name ++ ": ") ::
        pieces depth value ++ entryPieces depth false rest
end

/-- The text of a file as far as it could be written, and why no further. -/
structure Page where
  text : String
  result : Except Fault Unit

/-- Text and the pieces after it up to the first that cannot be written. -/
def Page.upTo (text : String) : List Piece → Page
  | [] => ⟨text, .ok ()⟩
  | .error fault :: _ => ⟨text, .error fault⟩
  | .ok more :: rest => upTo (text ++ more) rest

/-- A value over as many lines as it has items, for files. -/
def page (value : Value) : Page := Page.upTo "" (pieces 0 value)

end ChipEight.Json
