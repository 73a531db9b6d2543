/-
This file holds the causes for which a text is no YAML: the text as a whole has no meaning, or one of
its scalars asks for a character, a number or a day that does not exist, or collections are too deep.
-/

import ChipEight.Calendar

namespace ChipEight.Yaml

inductive Problem where
  | shapeless
  | noCharacter (code : Nat)
  | noDigits (base : Nat)
  | manyDigits (count : Nat)
  | manyParts
  | deep
  | calendar (problem : Calendar.Problem)
  deriving DecidableEq, Repr

def Problem.text : Problem → String
  | shapeless => "the document has no meaning"
  | noCharacter _ => "chr() arg not in range(0x110000)"
  | noDigits base => "invalid literal for int() with base " ++ toString base ++ ": \x27\x27"
  | manyDigits count => "a number has " ++ toString count ++ " digits"
  | manyParts => "a number has too many parts"
  | deep => "collections are too deep inside one another"
  | calendar problem => problem.text

end ChipEight.Yaml
