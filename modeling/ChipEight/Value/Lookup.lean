/-
This file looks parts of values up where their shape is not known, with the cause if there is no such
part.
-/

import ChipEight.Slice
import ChipEight.Value

namespace ChipEight.Value

/-- One text stands somewhere in another. -/
def standsIn (part : List Char) : List Char → Bool
  | [] => part.isEmpty
  | character :: rest => part.isPrefixOf (character :: rest) || standsIn part rest

/-- A mapping holds its keys, a list its items, and a text its parts. -/
def contains (value part : Value) : Except Fault Bool :=
  match value with
  | .dict entries =>
      match part.toKey? with
      | some key => .ok (Entries.has entries key)
      | none => .error .wrongKind
  | .list items => .ok (items.any fun item => item.same part)
  | .text characters =>
      match part with
      | .text wanted => .ok (standsIn wanted.toList characters.toList)
      | _ => .error .wrongKind
  | _ => .error .wrongKind

/-- The part under a key, or at a place of a list. -/
def item (value key : Value) : Except Fault Value :=
  match value with
  | .dict entries =>
      match key.toKey? with
      | some name =>
          match Entries.find? entries name with
          | some found => .ok found
          | none => .error (.foreign "KeyError" "")
      | none => .error .wrongKind
  | .list items =>
      match key.whole? with
      | some place => do
          let index ← Slice.index items.length place .listItem
          pure items[index]
      | none => .error .wrongKind
  | _ => .error .wrongKind

/-- The part under a name; only mappings can be asked for one that they may not have. -/
def get? (value : Value) (name : String) : Except Fault (Option Value) :=
  match value with
  | .dict entries => .ok (Entries.find? entries (.text name))
  | _ => .error .noMember

def getOr (value : Value) (name : String) (missing : Value) : Except Fault Value := do
  pure ((← value.get? name).getD missing)

def entriesOf (value : Value) : Except Fault Entries :=
  match value with
  | .dict entries => .ok entries
  | _ => .error .noMember

/-- The parts that a value is made of, one after another. -/
def parts (value : Value) : Except Fault (List Value) :=
  match value with
  | .list items => .ok items
  | .text characters =>
      .ok (characters.toList.map fun character => .text (String.ofList [character]))
  | .dict entries => .ok (entries.map fun entry => entry.1.toValue)
  | _ => .error .wrongKind

/-- The count of the parts. -/
def length (value : Value) : Except Fault Nat := do
  pure (← value.parts).length

/-- A list of pairs can be a mapping. The first item that is no pair says why a value is none. -/
def pairFault (position : Nat) : List Value → Fault
  | [] => .wrongKind
  | first :: rest =>
      match first.parts with
      | .error _ => .wrongKind
      | .ok [key, _] => if key.toKey?.isSome then pairFault (position + 1) rest else .wrongKind
      | .ok others => .unfit (.unpaired position others.length)

/-- A copy of a mapping. -/
def copied (value : Value) : Except Fault Entries :=
  match value with
  | .dict entries => .ok entries
  | other =>
      match other.parts with
      | .ok items => .error (pairFault 0 items)
      | .error fault => .error fault

/-- An end of a slice may be left out. -/
def sliceEnd (value : Value) : Except Fault (Option Int) :=
  match value with
  | .null => .ok none
  | other =>
      match other.whole? with
      | some place => .ok (some place)
      | none => .error .wrongKind

end ChipEight.Value
