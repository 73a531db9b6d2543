/-
This file holds values: the data of settings, snapshots and reports, whose shape only the user
knows. Mappings keep the order in which their keys were first given.
-/

import ChipEight.Calendar
import ChipEight.Double

namespace ChipEight

/-- The values that may be keys of a mapping. -/
inductive Key where
  | text (characters : String)
  | null
  | bool (flag : Bool)
  | int (number : Int)
  | float (number : Double)
  | date (day : Date)
  | moment (time : Moment)
  deriving DecidableEq, Repr

/-- What a key stands for, whatever its kind. -/
inductive Face where
  | text (characters : String)
  | null
  | whole (number : Int)
  | broken (number : Double)
  | date (day : Date)
  | localTime (time : Moment)
  | worldTime (ticks : Int)
  deriving DecidableEq, Repr

namespace Key

/-- A truth value stands for its number, a number for its value, and a moment whose clock is known for
its place in world time. -/
def face : Key → Face
  | text characters => .text characters
  | null => .null
  | bool flag => .whole (if flag then 1 else 0)
  | int number => .whole number
  | float number => if number.isWhole then .whole number.truncate else .broken number
  | date day => .date day
  | moment time =>
      match time.worldTicks? with
      | some ticks => .worldTime ticks
      | none => .localTime time

/-- Keys that stand for the same name the same entry. -/
def same (first second : Key) : Bool :=
  first.face == second.face

theorem sameSelf (key : Key) : key.same key = true := by
  simp [same]

end Key

/-- Values of settings and snapshots: what files of both formats can hold. Entries of a mapping keep
their order, and equality of values is `Value.same`, not structure. -/
inductive Value where
  | null
  | bool (flag : Bool)
  | int (number : Int)
  | float (number : Double)
  | date (day : Date)
  | moment (time : Moment)
  | text (characters : String)
  | list (items : List Value)
  | dict (entries : List (Key × Value))
  deriving Repr, Inhabited

/-- The entries of a mapping, of keys that are the same only one. -/
abbrev Entries := List (Key × Value)

namespace Entries

variable {A : Type}

def find? : List (Key × A) → Key → Option A
  | [], _ => none
  | (present, value) :: rest, key => if present.same key then some value else find? rest key

def has (entries : List (Key × A)) (key : Key) : Bool :=
  (find? entries key).isSome

/-- The new value takes the place of the old one under the key that was there; a new key comes
last. -/
def put : List (Key × A) → Key → A → List (Key × A)
  | [], key, value => [(key, value)]
  | (present, old) :: rest, key, value =>
      if present.same key then (present, value) :: rest else (present, old) :: put rest key value

def names (entries : List (Key × A)) : List Key :=
  entries.map Prod.fst

def putAll (entries others : List (Key × A)) : List (Key × A) :=
  others.foldl (fun current entry => put current entry.1 entry.2) entries

theorem findPutSame (entries : List (Key × A)) (key : Key) (value : A) :
    find? (put entries key value) key = some value := by
  induction entries with
  | nil => simp [put, find?, Key.sameSelf]
  | cons entry rest inductionHypothesis =>
      obtain ⟨present, old⟩ := entry
      by_cases same : present.same key
      · simp [put, find?, same]
      · simpa [put, find?, same] using inductionHypothesis

theorem findPutOther (entries : List (Key × A)) {key other : Key} (value : A)
    (different : other.face ≠ key.face) :
    find? (put entries key value) other = find? entries other := by
  induction entries with
  | nil => simp [put, find?, Key.same, different.symm]
  | cons entry rest inductionHypothesis =>
      obtain ⟨present, old⟩ := entry
      by_cases same : present.face = key.face
      · simp [put, find?, Key.same, same, different.symm]
      · by_cases found : present.face = other.face
        · simp [put, find?, Key.same, found, different]
        · simpa [put, find?, Key.same, same, found] using inductionHypothesis

end Entries

namespace Key

def toValue : Key → Value
  | text characters => .text characters
  | null => .null
  | bool flag => .bool flag
  | int number => .int number
  | float number => .float number
  | date day => .date day
  | moment time => .moment time

end Key

namespace Value

/-- Lists and mappings cannot be keys. -/
def toKey? : Value → Option Key
  | text characters => some (.text characters)
  | null => some .null
  | bool flag => some (.bool flag)
  | int number => some (.int number)
  | float number => some (.float number)
  | date day => some (.date day)
  | moment time => some (.moment time)
  | list _ => none
  | dict _ => none

/-- The word for the kind of a value in messages. -/
def kindName : Value → String
  | null => "NoneType"
  | bool _ => "bool"
  | int _ => "int"
  | float _ => "float"
  | date _ => "date"
  | moment _ => "datetime"
  | text _ => "str"
  | list _ => "list"
  | dict _ => "dict"

/-- Zero and empty values count as false. -/
def isTrue : Value → Bool
  | null => false
  | bool flag => flag
  | int number => number != 0
  | float number => !number.isZero
  | date _ => true
  | moment _ => true
  | text characters => !characters.isEmpty
  | list items => !items.isEmpty
  | dict entries => !entries.isEmpty

def entries? : Value → Option Entries
  | dict entries => some entries
  | _ => none

/-- The value under a name, if the value is a mapping that has it. -/
def field? (value : Value) (name : String) : Option Value :=
  match value with
  | dict entries => Entries.find? entries (.text name)
  | _ => none

/-- A mapping with names as keys. -/
def record (fields : List (String × Value)) : Value :=
  .dict (fields.map fun field => (.text field.1, field.2))

def texts (items : List String) : Value :=
  .list (items.map .text)

def ints (items : List Int) : Value :=
  .list (items.map .int)

/-- Truth values count as the numbers one and zero. -/
def whole? : Value → Option Int
  | bool flag => some (if flag then 1 else 0)
  | int number => some number
  | _ => none

/-- The place of a number on the line of numbers. -/
def place? : Value → Option Place
  | bool flag => some (.ofInt (if flag then 1 else 0))
  | int number => some (.ofInt number)
  | float number => some (.ofDouble number)
  | _ => none

mutual
/-- Numbers are the same if their values are, whatever their kinds; the order of the keys of a
mapping does not matter. -/
def same : Value → Value → Bool
  | list first, list second => sameItems first second
  | dict first, dict second => first.length == second.length && sameEntries first second
  | text first, text second => first == second
  | null, null => true
  | date first, date second => first == second
  | moment first, moment second => (Key.moment first).same (.moment second)
  | first, second =>
      match first.place?, second.place? with
      | some here, some there => here.same there
      | _, _ => false

def sameItems : List Value → List Value → Bool
  | [], [] => true
  | first :: firsts, second :: seconds => first.same second && sameItems firsts seconds
  | _, _ => false

def sameEntries : List (Key × Value) → List (Key × Value) → Bool
  | [], _ => true
  | (key, first) :: rest, entries =>
      (match Entries.find? entries key with
        | some second => first.same second
        | none => false) && sameEntries rest entries
end

end Value

end ChipEight
