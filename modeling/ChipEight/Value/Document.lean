/-
This file holds documents: values whose lists and mappings may be told apart by marks. A text can have one
mapping stand in several places, and what is done to it in one of them is then done in all.
-/

import ChipEight.Value

namespace ChipEight

/-- A value in which lists and mappings of one mark are one object; those without a mark are each an object
of their own. No object is inside itself. -/
inductive Document where
  | scalar (key : Key)
  | list (mark : Option Nat) (items : List Document)
  | mapping (mark : Option Nat) (entries : List (Key × Document))
  deriving Repr

namespace Document

mutual
/-- What a document says, whatever is one object. -/
def value : Document → Value
  | .scalar key => key.toValue
  | .list _ items => .list (itemValues items)
  | .mapping _ entries => .dict (entryValues entries)

def itemValues : List Document → List Value
  | [] => []
  | item :: rest => item.value :: itemValues rest

def entryValues : List (Key × Document) → Entries
  | [] => []
  | (key, part) :: rest => (key, part.value) :: entryValues rest
end

/-- The entries of a mapping; anything else has none. -/
def entries : Document → List (Key × Document)
  | .mapping _ entries => entries
  | _ => []

mutual
/-- The document in which everything is an object of its own. -/
def ofValue : Value → Document
  | .null => .scalar .null
  | .bool flag => .scalar (.bool flag)
  | .int number => .scalar (.int number)
  | .float number => .scalar (.float number)
  | .date day => .scalar (.date day)
  | .moment time => .scalar (.moment time)
  | .text characters => .scalar (.text characters)
  | .list items => .list none (ofItems items)
  | .dict entries => .mapping none (ofEntries entries)

def ofItems : List Value → List Document
  | [] => []
  | item :: rest => ofValue item :: ofItems rest

def ofEntries : List (Key × Value) → List (Key × Document)
  | [] => []
  | (key, part) :: rest => (key, ofValue part) :: ofEntries rest
end

mutual
/-- The marks in a document, each as often as it stands there. -/
def marks : Document → List Nat
  | .scalar _ => []
  | .list mark items => mark.toList ++ itemMarks items
  | .mapping mark entries => mark.toList ++ entryMarks entries

def itemMarks : List Document → List Nat
  | [] => []
  | item :: rest => item.marks ++ itemMarks rest

def entryMarks : List (Key × Document) → List Nat
  | [] => []
  | (_, part) :: rest => part.marks ++ entryMarks rest
end

/-- No list and no mapping stands in two places. -/
def IsSingle (document : Document) : Prop :=
  document.marks.Nodup

end Document

end ChipEight
