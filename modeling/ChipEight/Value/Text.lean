/-
This file writes values as messages show them: a text alone stands as it is, and inside a list or a
mapping between quotes. Numbers of more than 4300 digits have no such form.
-/

import ChipEight.Double.Shortest
import ChipEight.Fault
import ChipEight.Text.Numeral
import ChipEight.Value

namespace ChipEight.Value

mutual
/-- The form of a value that shows its kind. -/
def quoted : Value → String
  | null => "None"
  | bool flag => if flag then "True" else "False"
  | int number => toString number
  | float number => number.text
  | date day => day.quoted
  | moment time => time.quoted
  | text characters => Text.quoted characters
  | list items => "[" ++ ", ".intercalate (quotedItems items) ++ "]"
  | dict entries => "\x7b" ++ ", ".intercalate (quotedEntries entries) ++ "\x7d"

def quotedItems : List Value → List String
  | [] => []
  | item :: rest => item.quoted :: quotedItems rest

def quotedEntries : List (Key × Value) → List String
  | [] => []
  | (key, value) :: rest =>
      ((match key with
        | .text characters => Text.quoted characters
        | .null => "None"
        | .bool flag => if flag then "True" else "False"
        | .int number => toString number
        | .float number => number.text
        | .date day => day.quoted
        | .moment time => time.quoted) ++ ": " ++ value.quoted) :: quotedEntries rest
end

/-- The plain form of a value. -/
def shown : Value → String
  | text characters => characters
  | date day => day.text
  | moment time => time.text
  | value => value.quoted

/-! Numbers that are too long to be shown -/

mutual
/-- Every number in the value has few enough digits to be shown. -/
def isShowable : Value → Bool
  | int number => number.natAbs < Numeral.firstUnshown
  | list items => showableItems items
  | dict entries => showableEntries entries
  | _ => true

def showableItems : List Value → Bool
  | [] => true
  | item :: rest => item.isShowable && showableItems rest

def showableEntries : List (Key × Value) → Bool
  | [] => true
  | (key, value) :: rest =>
      (match key with
        | .int number => decide (number.natAbs < Numeral.firstUnshown)
        | _ => true) && value.isShowable && showableEntries rest
end

/-- The plain form of a value, unless a number in it is too long. -/
def show? (value : Value) : Except Fault String :=
  if value.isShowable then .ok value.shown else .error (.unfit .longNumber)

end ChipEight.Value
