/-
This file reads values from JSON text: one value with white space around it, no comma before a
closing bracket, and of entries with one name the last. A refusal says what was expected and where.
-/

import ChipEight.Text.Half
import ChipEight.Text.Numeral
import ChipEight.Value

namespace ChipEight.Json

/-- What a text lacks at the place where reading stops. -/
inductive Defect where
  | byteOrderMark
  | value
  | name
  | colon
  | comma
  | extra
  | unterminated
  | control
  | escape
  | escapedNumber
  | manyDigits (count : Nat)
  | deepList
  | deepMapping
  deriving DecidableEq, Repr

def Defect.text : Defect → String
  | byteOrderMark => "Unexpected UTF-8 BOM (decode using utf-8-sig)"
  | value => "Expecting value"
  | name => "Expecting property name enclosed in double quotes"
  | colon => "Expecting ':' delimiter"
  | comma => "Expecting ',' delimiter"
  | extra => "Extra data"
  | unterminated => "Unterminated string starting at"
  | control => "Invalid control character at"
  | escape => "Invalid \\escape"
  | escapedNumber => "Invalid \\uXXXX escape"
  | manyDigits count => "Number of " ++ toString count ++ " digits"
  | deepList => "Deep list"
  | deepMapping => "Deep mapping"

/-- A defect and the count of characters before it. -/
structure Problem where
  defect : Defect
  position : Nat
  deriving DecidableEq, Repr

/-- The characters from `position` on. -/
structure Cursor where
  position : Nat
  rest : List Char

namespace Cursor

def fail {A : Type} (cursor : Cursor) (defect : Defect) : Except Problem A :=
  .error ⟨defect, cursor.position⟩

def drop (cursor : Cursor) (count : Nat) : Cursor :=
  ⟨cursor.position + count, cursor.rest.drop count⟩

def isSpace (character : Char) : Bool :=
  character == ' ' || character == '\t' || character == '\n' || character == '\r'

/-- The cursor after white space. -/
def skip (cursor : Cursor) : Cursor :=
  cursor.drop (cursor.rest.takeWhile isSpace).length

end Cursor

def isDigit (character : Char) : Bool :=
  '0' ≤ character && character ≤ '9'

def decimalValue (digits : List Char) : Nat :=
  digits.foldl (fun value digit => 10 * value + (digit.toNat - 48)) 0

/-- The digits of a fraction after its point. A point without digits is not part of a number. -/
def fraction : List Char → List Char
  | '.' :: rest => rest.takeWhile isDigit
  | _ => []

/-- The exponent after its mark, if there is one with digits, and the count of its characters. -/
def exponent : List Char → Option (Int × Nat)
  | mark :: rest =>
      if mark == 'e' || mark == 'E' then
        let (negative, signs, after) := match rest with
          | '-' :: after => (true, 1, after)
          | '+' :: after => (false, 1, after)
          | after => (false, 0, after)
        let digits := after.takeWhile isDigit
        let value : Int := decimalValue digits
        if digits.isEmpty then none
        else some (if negative then -value else value, 1 + signs + digits.length)
      else none
  | [] => none

/-- The number at the start of a text, and the count of its characters. A number is whole unless it
has a point or an exponent, and whole numbers cannot have too many digits. -/
def number? (text : List Char) : Option (Except Defect Value × Nat) :=
  let negative := text.head? == some '-'
  let unsigned := if negative then text.drop 1 else text
  let whole := if unsigned.head? == some '0' then ['0'] else unsigned.takeWhile isDigit
  if whole.isEmpty then none
  else
    let places := fraction (unsigned.drop whole.length)
    let placeCount := if places.isEmpty then 0 else places.length + 1
    let power := exponent (unsigned.drop (whole.length + placeCount))
    let signCount := if negative then 1 else 0
    let count := signCount + whole.length + placeCount + (power.map Prod.snd).getD 0
    if places.isEmpty && power.isNone then
      let value : Int := decimalValue whole
      if Numeral.longestDecimal < whole.length then some (.error (.manyDigits whole.length), count)
      else some (.ok (.int (if negative then -value else value)), count)
    else
      let shift := (power.map Prod.fst).getD 0 - places.length
      some (.ok (.float (Double.ofDecimal negative (decimalValue (whole ++ places)) shift)), count)

def infinity (negative : Bool) : Value :=
  .float (Double.ofParts negative Double.infinityBits)

/-- The words that stand for values. -/
def words : List (List Char × Value) :=
  [("null".toList, .null), ("true".toList, .bool true), ("false".toList, .bool false),
    ("NaN".toList, .float Double.nan), ("Infinity".toList, infinity false),
    ("-Infinity".toList, infinity true)]

/-- A word or a number at the start of the text. -/
def scalar (cursor : Cursor) : Except Problem (Value × Cursor) :=
  match words.find? fun word => word.1.isPrefixOf cursor.rest with
  | some (word, value) => .ok (value, cursor.drop word.length)
  | none =>
      match number? cursor.rest with
      | some (.ok value, count) => .ok (value, cursor.drop count)
      | some (.error defect, _) => cursor.fail defect
      | none => cursor.fail .value

def escapes : List (Char × Char) :=
  [('\x22', '\x22'), ('\x5c', '\x5c'), ('/', '/'), ('b', '\x08'), ('f', '\x0c'), ('n', '\n'),
    ('r', '\r'), ('t', '\t')]

/-- The number of four digits of base sixteen. -/
def fourDigits? (text : List Char) : Option Nat :=
  match text with
  | first :: second :: third :: fourth :: _ => do
      let high ← Hex.digitValue? first
      let middle ← Hex.digitValue? second
      let low ← Hex.digitValue? third
      let last ← Hex.digitValue? fourth
      pure (((16 * high + middle) * 16 + low) * 16 + last)
  | _ => none

def isHighHalf (code : Nat) : Bool := 0xd800 ≤ code && code < 0xdc00

def isLowHalf (code : Nat) : Bool := 0xdc00 ≤ code && code < 0xe000

/-- The character whose number follows, and the count of characters read; two halves of a pair make
one character, and a half alone stands for itself. A number that ends the text is cut off. -/
def numberedCharacter (cursor : Cursor) : Except Problem (Char × Nat) :=
  match cursor.rest.drop 4, fourDigits? cursor.rest with
  | [], _ => .error ⟨.escapedNumber, cursor.position - 1⟩
  | _, none => .error ⟨.escapedNumber, cursor.position - 1⟩
  | after, some code =>
      match after with
      | '\x5c' :: 'u' :: second =>
          if isHighHalf code && !(second.drop 4).isEmpty then
            match fourDigits? second with
            | none => .error ⟨.escapedNumber, cursor.position + 5⟩
            | some low =>
                if isLowHalf low then
                  .ok (Char.ofNat (0x10000 + (code - 0xd800) * 0x400 + (low - 0xdc00)), 10)
                else .ok (Text.Half.character code, 4)
          else .ok (Text.Half.character code, 4)
      | _ => .ok (Text.Half.character code, 4)

/-- The characters of a text up to its closing quote, in reverse after `read`. `start` is the place
of the opening quote. -/
def quotedFrom (start : Nat) : Nat → List Char → Cursor → Except Problem (List Char × Cursor)
  | 0, _, _ => .error ⟨.unterminated, start⟩
  | fuel + 1, read, cursor =>
      match cursor.rest with
      | [] => .error ⟨.unterminated, start⟩
      | '\x22' :: _ => .ok (read, cursor.drop 1)
      | '\x5c' :: [] => .error ⟨.unterminated, start⟩
      | '\x5c' :: 'u' :: _ => do
          let (character, count) ← numberedCharacter (cursor.drop 2)
          quotedFrom start fuel (character :: read) (cursor.drop (2 + count))
      | '\x5c' :: mark :: _ =>
          match escapes.lookup mark with
          | some character => quotedFrom start fuel (character :: read) (cursor.drop 2)
          | none => cursor.fail .escape
      | character :: _ =>
          if character.toNat ≤ 0x1f then cursor.fail .control
          else quotedFrom start fuel (character :: read) (cursor.drop 1)

/-- The text whose opening quote is at the cursor. The fuel counts the characters that may follow. -/
def quotedText (fuel : Nat) (cursor : Cursor) : Except Problem (String × Cursor) := do
  let (read, after) ← quotedFrom cursor.position fuel [] (cursor.drop 1)
  pure (String.ofList read.reverse, after)

/-- Collections may be this deep inside one another, on a host whose calls may be a thousand deep and a few of them
taken. -/
def deepest : Nat := 988

mutual
/-- The value at the cursor. A character that is read takes at most two of the fuel, and `room` counts
the collections that may still be inside one another. -/
def value : Nat → Nat → Cursor → Except Problem (Value × Cursor)
  | 0, _, cursor => cursor.fail .value
  | fuel + 1, room, cursor =>
      match cursor.rest with
      | '\x22' :: _ => do
          let (characters, after) ← quotedText fuel cursor
          pure (.text characters, after)
      | '\x7b' :: _ =>
          let inner := (cursor.drop 1).skip
          if room == 0 then cursor.fail .deepMapping
          else
            match inner.rest with
            | '\x7d' :: _ => .ok (.dict [], inner.drop 1)
            | _ => entries fuel (room - 1) [] inner
      | '[' :: _ =>
          let inner := (cursor.drop 1).skip
          if room == 0 then cursor.fail .deepList
          else
            match inner.rest with
            | ']' :: _ => .ok (.list [], inner.drop 1)
            | _ => items fuel (room - 1) [] inner
      | _ => scalar cursor

/-- The items of a list from the next one on. -/
def items : Nat → Nat → List Value → Cursor → Except Problem (Value × Cursor)
  | 0, _, _, cursor => cursor.fail .value
  | fuel + 1, room, read, cursor => do
      let (item, after) ← value fuel room cursor
      let next := after.skip
      match next.rest with
      | ']' :: _ => .ok (.list (item :: read).reverse, next.drop 1)
      | ',' :: _ => items fuel room (item :: read) (next.drop 1).skip
      | _ => next.fail .comma

/-- The entries of a mapping from the next name on. -/
def entries : Nat → Nat → Entries → Cursor → Except Problem (Value × Cursor)
  | 0, _, _, cursor => cursor.fail .value
  | fuel + 1, room, read, cursor =>
      match cursor.rest with
      | '\x22' :: _ => do
          let (name, afterName) ← quotedText fuel cursor
          let colon := afterName.skip
          match colon.rest with
          | ':' :: _ =>
              let (item, after) ← value fuel room (colon.drop 1).skip
              let known := Entries.put read (.text name) item
              let next := after.skip
              match next.rest with
              | '\x7d' :: _ => .ok (.dict known, next.drop 1)
              | ',' :: _ => entries fuel room known (next.drop 1).skip
              | _ => next.fail .comma
          | _ => colon.fail .colon
      | _ => cursor.fail .name
end

/-- The value that a whole text stands for. -/
def read (text : String) : Except Problem Value :=
  let characters := text.toList
  match characters with
  | '\ufeff' :: _ => .error ⟨.byteOrderMark, 0⟩
  | _ => do
      let (result, after) ←
        value (2 * characters.length + 2) deepest (Cursor.mk 0 characters).skip
      let last := after.skip
      if last.rest.isEmpty then .ok result else last.fail .extra

/-- The line, and the place in it, of the character after `before`. -/
def lineAndColumn (before : List Char) : Nat × Nat :=
  (before.count '\n' + 1, (before.reverse.takeWhile fun character => character != '\n').length + 1)

/-- What is wrong with a text, and where. -/
def Problem.message (problem : Problem) (text : String) : String :=
  let (line, column) := lineAndColumn (text.toList.take problem.position)
  problem.defect.text ++ ": line " ++ toString line ++ " column " ++ toString column ++
    " (char " ++ toString problem.position ++ ")"

end ChipEight.Json
