/-
This file takes seeds from values: a number that is not negative, a list of seeds, or, inside a list, the
text of a number.
-/

import ChipEight.RandomBytes
import ChipEight.Value.Word

namespace ChipEight.RandomBytes

/-- The words of a number. -/
def numberWords (number : Int) : Except Fault (List UInt32) :=
  if number < 0 then .error (.unfit .negativeSeed) else .ok (seedWords number.toNat)

/-- The words of the text of a number, in base sixteen if it has the mark for it. -/
def textWords (text : String) : Except Fault (List UInt32) := do
  if text.startsWith "0x" then
    match Numeral.literal text with
    | .ok number => numberWords number
    | .error _ => .error (.unfit (.notHexNumber text))
  else if text.toList.head?.any fun character => '0' ≤ character && character ≤ '9' then
    numberWords (← (Value.text text).integer)
  else .error (.unfit .unknownSeed)

mutual
/-- The words of a seed inside a list. -/
def partWords : Value → Except Fault (List UInt32)
  | .bool flag => numberWords (if flag then 1 else 0)
  | .int number => numberWords number
  | .text characters => textWords characters
  | .list parts => allWords parts
  | .dict entries => entryWords entries
  | _ => .error .wrongKind

def allWords : List Value → Except Fault (List UInt32)
  | [] => .ok []
  | part :: rest => do
      let words ← partWords part
      pure (words ++ (← allWords rest))

/-- The words of the keys of a mapping. -/
def entryWords : List (Key × Value) → Except Fault (List UInt32)
  | [] => .ok []
  | (key, _) :: rest => do
      let words ← match key with
        | .text characters => textWords characters
        | .int number => numberWords number
        | .bool flag => numberWords (if flag then 1 else 0)
        | _ => .error .wrongKind
      pure (words ++ (← entryWords rest))
end

/-- The generator of a seed. Without a seed any generator will do. -/
def ofValue (seed : Value) : Except Fault RandomBytes :=
  match seed with
  | .null => .ok (ofSeed 0)
  | .bool _ => (partWords seed).map ofWords
  | .int _ => (partWords seed).map ofWords
  | .list _ => (partWords seed).map ofWords
  | _ => .error .wrongKind

end ChipEight.RandomBytes
