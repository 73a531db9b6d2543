/-
This file quotes text: the form in which messages show a text so that its ends and its invisible
characters can be seen.
-/

import ChipEight.Text.Half
import ChipEight.Text.Hex
import ChipEight.Text.Printable

namespace ChipEight.Text

/-- The number of a character, in two, four or eight small digits. -/
def numbered (character : Char) : List Char :=
  let code := Half.code character
  let filled (width : Nat) := (Hex.padded width code).toList.map Char.toLower
  if code < 0x100 then ['\x5c', 'x'] ++ filled 2
  else if code < 0x10000 then ['\x5c', 'u'] ++ filled 4
  else ['\x5c', 'U'] ++ filled 8

/-- A character between quotes of the kind `mark`. -/
def quotedCharacter (mark character : Char) : List Char :=
  if character == mark || character == '\x5c' then ['\x5c', character]
  else if character == '\n' then ['\x5c', 'n']
  else if character == '\r' then ['\x5c', 'r']
  else if character == '\t' then ['\x5c', 't']
  else if isPrintable character then [character]
  else numbered character

/-- The double quote is used only around a text that has a single quote and no double quote. -/
def quoteMark (text : String) : Char :=
  if text.contains '\x27' && !text.contains '\x22' then '\x22' else '\x27'

/-- The text between quotes. -/
def quoted (text : String) : String :=
  let mark := quoteMark text
  String.ofList (mark :: text.toList.flatMap (quotedCharacter mark) ++ [mark])

end ChipEight.Text
