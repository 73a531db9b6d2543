/-
This file says what plain scalars of YAML mean, by the rules of version 1.1: words for truth values
and for nothing, whole numbers in four bases, numbers with a point, parts of sixty, days and moments.
-/

import ChipEight.Text.Hex
import ChipEight.Text.Numeral
import ChipEight.Value
import ChipEight.Yaml.Problem

namespace ChipEight.Yaml

/-- What a plain scalar stands for. Two marks have a meaning only as keys. -/
inductive Meaning where
  | value (value : Value)
  | mergeMark
  | defaultMark

def trueWords : List String :=
  ["yes", "Yes", "YES", "true", "True", "TRUE", "on", "On", "ON"]

def falseWords : List String :=
  ["no", "No", "NO", "false", "False", "FALSE", "off", "Off", "OFF"]

def nullWords : List String := ["", "~", "null", "Null", "NULL"]

/-- The value of digits in a base, the characters that are no digits left out. -/
def digitsValue (base : Nat) (digits : List Char) : Nat :=
  digits.foldl
    (fun value character => match Hex.digitValue? character with
      | some digit => base * value + digit
      | none => value)
    0

def isDigitOf (base : Nat) (character : Char) : Bool :=
  character == '_' || ((Hex.digitValue? character).any fun digit => digit < base)

def isDecimal (character : Char) : Bool :=
  '0' ≤ character && character ≤ '9'

/-- The text starts with a digit, and digits and underscores follow. -/
def startsNumber : List Char → Bool
  | first :: rest => isDecimal first && rest.all (isDigitOf 10)
  | [] => false

/-- A part of sixty has one digit, or two of which the first is below six. -/
def isSixtieth : List Char → Bool
  | [digit] => isDecimal digit
  | [high, low] => '0' ≤ high && high ≤ '5' && isDecimal low
  | _ => false

/-- The parts of a text between colons. -/
def colonParts : List Char → List (List Char)
  | [] => [[]]
  | character :: rest =>
      match colonParts rest with
      | first :: others =>
          if character == ':' then [] :: first :: others else (character :: first) :: others
      | [] => [[character]]

/-- The sign of a number and what follows it. -/
def signed : List Char → Bool × List Char
  | '-' :: rest => (true, rest)
  | '+' :: rest => (false, rest)
  | rest => (false, rest)

/-! Whole numbers -/

/-- The number of decimal digits, unless they are too many. -/
def decimalNumber (digits : List Char) : Except Problem Nat :=
  let count := digits.countP isDecimal
  if Numeral.longestDecimal < count then .error (.manyDigits count) else .ok (digitsValue 10 digits)

/-- The number of parts of sixty, the greatest first. -/
def sixties (parts : List (List Char)) : Except Problem Nat := do
  pure ((← parts.mapM decimalNumber).foldl (fun value part => 60 * value + part) 0)

/-- A whole number in a base has a digit besides its underscores. -/
def based (base : Nat) (digits : List Char) : Option (Except Problem Nat) :=
  if digits.isEmpty || !digits.all (isDigitOf base) then none
  else if digits.all fun character => character == '_' then some (.error (.noDigits base))
  else some (.ok (digitsValue base digits))

/-- The absolute value of a whole number, if the text has the form of one. -/
def wholeMagnitude? (text : List Char) : Option (Except Problem Nat) :=
  match text with
  | '0' :: 'b' :: digits => based 2 digits
  | '0' :: 'x' :: digits => based 16 digits
  | ['0'] => some (.ok 0)
  | '0' :: digits =>
      if digits.all (isDigitOf 8) then some (.ok (digitsValue 8 digits)) else none
  | _ =>
      match colonParts text with
      | [digits] => if startsNumber digits then some (decimalNumber digits) else none
      | first :: parts =>
          if startsNumber first && parts.all isSixtieth then some (sixties (first :: parts))
          else none
      | [] => none

/-- A whole number, if the text has the form of one. -/
def whole? (text : List Char) : Option (Except Problem Value) :=
  let (negative, body) := signed text
  (wholeMagnitude? body).map fun magnitude =>
    magnitude.map fun number => .int (if negative then -(number : Int) else number)

/-! Numbers with a point -/

/-- The exponent at the end of a number, which must have a sign. -/
def exponent? : List Char → Option Int
  | [] => some 0
  | mark :: sign :: digits =>
      if (mark == 'e' || mark == 'E') && !digits.isEmpty && digits.all isDecimal then
        if sign == '-' then some (-(digitsValue 10 digits : Int))
        else if sign == '+' then some (digitsValue 10 digits)
        else none
      else none
  | _ => none

/-- The number of the digits before and after a point, and of an exponent. -/
def pointed (negative : Bool) (whole rest : List Char) : Option Double :=
  let places := rest.takeWhile (isDigitOf 10)
  let kept := places.filter isDecimal
  (exponent? (rest.drop places.length)).map fun power =>
    Double.ofDecimal negative (digitsValue 10 (whole ++ kept)) (power - kept.length)

/-- The sum of parts of sixty, the smallest first, each rounded as it is added. `scale` is what a part
counts for. -/
def sixtiesSum (sum : Double) (scale : Nat) : List Double → Except Problem Double
  | [] => .ok sum
  | part :: rest =>
      match Double.ofInt? scale with
      | none => .error .manyParts
      | some factor => sixtiesSum (sum.add (part.mul factor)) (60 * scale) rest

/-- The number of whole parts of sixty, the greatest first, the last of which has places. -/
def sixtiesPointed (negative : Bool) (parts : List (List Char)) (places : List Char) :
    Except Problem Double :=
  let kept := places.filter isDecimal
  let numbers := match parts.reverse with
    | [] => []
    | last :: others =>
        Double.ofDecimal false (digitsValue 10 (last ++ kept)) (-kept.length) ::
          others.map fun part => Double.ofDecimal false (digitsValue 10 part) 0
  (sixtiesSum Double.zero 1 numbers).map fun sum => if negative then sum.neg else sum

/-- A number with a point, if the text has the form of one. -/
def float? (text : List Char) : Option (Except Problem Double) :=
  let (negative, body) := signed text
  let word := String.ofList body
  if [".inf", ".Inf", ".INF"].contains word then
    some (.ok (Double.ofParts negative Double.infinityBits))
  else if [".nan", ".NaN", ".NAN"].contains (String.ofList text) then some (.ok Double.nan)
  else
    let whole := body.takeWhile fun character => character != '.'
    match body.drop whole.length with
    | '.' :: rest =>
        if whole.isEmpty then
          if body.length == text.length && (rest.head?.any isDecimal) then
            (pointed false [] rest).map .ok
          else none
        else if startsNumber whole then (pointed negative whole rest).map .ok
        else
          match colonParts whole with
          | first :: second :: parts =>
              if startsNumber first && (second :: parts).all isSixtieth &&
                  rest.all (isDigitOf 10) then
                some (sixtiesPointed negative (first :: second :: parts) rest)
              else none
          | _ => none
    | _ => none

/-! Days and moments -/

/-- The number of up to `most` digits, at least `least`, and what follows them. -/
def digitRun? (least most : Nat) (text : List Char) : Option (Nat × List Char) :=
  let digits := (text.takeWhile isDecimal).take most
  if least ≤ digits.length then some (digitsValue 10 digits, text.drop digits.length) else none

/-- The number of up to two digits after a mark, and what follows them. -/
def markedRun? (mark : Char) (least : Nat) : List Char → Option (Nat × List Char)
  | character :: rest => if character == mark then digitRun? least 2 rest else none
  | [] => none

def isBlankMark (character : Char) : Bool :=
  character == ' ' || character == '\t'

/-- The numbers of a day, the last two of at least so many digits, and what follows them. -/
def dayNumbers? (least : Nat) (text : List Char) : Option ((Nat × Nat × Nat) × List Char) := do
  let (year, afterYear) ← digitRun? 4 4 text
  let (month, afterMonth) ← markedRun? '-' least afterYear
  let (day, rest) ← markedRun? '-' least afterMonth
  pure ((year, month, day), rest)

/-- The text of a clock, which comes after the letter T or after blanks. -/
def clockText? (text : List Char) : Option (List Char) :=
  match text with
  | 'T' :: rest => some rest
  | 't' :: rest => some rest
  | _ =>
      let rest := text.dropWhile isBlankMark
      if rest.length < text.length then some rest else none

/-- The millionths of a second after a point, if there is one, and what follows them. -/
def millionths (text : List Char) : Nat × List Char :=
  match text with
  | '.' :: rest =>
      let digits := (rest.takeWhile isDecimal).take 6
      (digitsValue 10 digits * Nat.pow 10 (6 - digits.length), rest.dropWhile isDecimal)
  | _ => (0, text)

/-- How many minutes a clock is ahead of world time, if the text that ends it tells. -/
def ahead? (text : List Char) : Option (Option Int) :=
  if text.isEmpty then some none
  else
    match text.dropWhile isBlankMark with
    | ['Z'] => some (some 0)
    | sign :: rest => do
        let (hours, more) ← digitRun? 1 2 rest
        let (minutes, last) ← if more.isEmpty then some (0, []) else markedRun? ':' 2 more
        let total : Int := 60 * hours + minutes
        if !last.isEmpty then none
        else if sign == '-' then some (some (-total))
        else if sign == '+' then some (some total)
        else none
    | [] => none

/-- What a clock shows. -/
structure Clock where
  hour : Nat
  minute : Nat
  second : Nat
  millionths : Nat
  ahead : Option Int

def clock? (text : List Char) : Option Clock := do
  let (hour, afterHour) ← digitRun? 1 2 text
  let (minute, afterMinute) ← markedRun? ':' 2 afterHour
  let (second, afterSecond) ← markedRun? ':' 2 afterMinute
  let (parts, rest) := millionths afterSecond
  pure ⟨hour, minute, second, parts, ← ahead? rest⟩

/-- The moment of a clock on a day. -/
def momentOf (day : Nat × Nat × Nat) (clock : Clock) : Except Calendar.Problem Moment := do
  let ahead ← clock.ahead.mapM Moment.checkAhead
  let date ← Date.make day.1 day.2.1 day.2.2
  Moment.make date clock.hour clock.minute clock.second clock.millionths ahead

/-- A day or a moment, if the text has the form of one. Alone, a day has all its digits. -/
def dated? (text : List Char) : Option (Except Calendar.Problem Value) :=
  match dayNumbers? 2 text with
  | some (day, []) => some ((Date.make day.1 day.2.1 day.2.2).map .date)
  | _ => do
      let (day, rest) ← dayNumbers? 1 text
      let clock ← clock? (← clockText? rest)
      pure ((momentOf day clock).map .moment)

/-! Meaning -/

/-- The meaning of a text that is no word; one that is no number and no day either stands for
itself. -/
def numberOrText (text : String) : Except Problem Value :=
  match float? text.toList with
  | some number => number.map .float
  | none =>
      match whole? text.toList with
      | some number => number
      | none =>
          match dated? text.toList with
          | some value => value.mapError .calendar
          | none => .ok (.text text)

/-- The meaning of a plain scalar. -/
def meaning (text : String) : Except Problem Meaning :=
  if trueWords.contains text then .ok (.value (.bool true))
  else if falseWords.contains text then .ok (.value (.bool false))
  else if nullWords.contains text then .ok (.value .null)
  else if text == "<<" then .ok .mergeMark
  else if text == "=" then .ok .defaultMark
  else (numberOrText text).map .value

/-- A plain scalar of this text stands for the text. -/
def isPlainText (text : String) : Bool :=
  match meaning text with
  | .ok (.value (.text _)) => true
  | _ => false

end ChipEight.Yaml
