/-
This file finds the grid that a value is: a list has one side, a list of lists as long as each other has
two, and a value that is no list has none. Lists of unlike lengths are no grid.
-/

import ChipEight.Value.Word

namespace ChipEight

/-- The lengths of the sides, the outermost first, and the items in order. -/
structure Grid where
  sides : List Nat
  items : List Value

namespace Grid

/-- A grid has at most this many sides. -/
def mostSides : Nat := 64

/-- What is known of a grid while its parts are looked at one after another. There are `depth` sides at
most, and exactly so many once a part without parts of its own has settled them. -/
structure Survey where
  depth : Nat := mostSides
  sides : List Nat := []
  settled : Bool := false
  ragged : Bool := false

namespace Survey

/-- The survey after a list of a length at some level, which must agree with the lists before it. -/
def list (survey : Survey) (level length : Nat) : Survey :=
  if !survey.settled then { survey with sides := survey.sides.take level ++ [length] }
  else if survey.sides[level]? == some length then survey
  else { survey with depth := level, ragged := true }

/-- The survey after an item at some level. -/
def item (survey : Survey) (level : Nat) : Survey :=
  if survey.depth == level then { survey with settled := true }
  else { survey with depth := level, settled := true, ragged := survey.ragged || survey.settled }

mutual
/-- The survey after a part at some level. -/
def look (level : Nat) (survey : Survey) : Value → Survey
  | .list parts =>
      if level == survey.depth then { survey.item level with ragged := true }
      else
        let seen := survey.list level parts.length
        if seen.ragged && seen.depth == level then seen
        else
          match parts with
          | [] => { seen with depth := level + 1, settled := true }
          | first :: rest => lookAll (level + 1) (look (level + 1) seen first) rest
  | _ => survey.item level

def lookAll (level : Nat) (survey : Survey) : List Value → Survey
  | [] => survey
  | part :: rest => lookAll level (look level survey part) rest
end

end Survey

mutual
/-- The items of a value, from the first. -/
def itemsOf : Value → List Value
  | .list parts => itemsOfAll parts
  | value => [value]

def itemsOfAll : List Value → List Value
  | [] => []
  | part :: rest => itemsOf part ++ itemsOfAll rest
end

/-- The grid of a value, if it is one. -/
def ofValue (value : Value) : Except Fault Grid :=
  let survey := Survey.look 0 {} value
  if !survey.ragged then .ok ⟨survey.sides.take survey.depth, itemsOf value⟩
  else if survey.depth == mostSides then .error (.unfit .manySides)
  else .error (.unfit (.ragged (survey.sides.take survey.depth)))

/-- The items of a grid as words. -/
def words (bits : Nat) (grid : Grid) : Except Fault (List Nat) :=
  grid.items.mapM (Value.word bits)

end Grid

end ChipEight
