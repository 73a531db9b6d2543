/-
This file reads values from YAML text: one document of nodes whose plain scalars have a meaning.
-/

import ChipEight.Value.Document
import ChipEight.Yaml.Composer
import ChipEight.Yaml.Scalar

namespace ChipEight.Yaml

/-- The key of a scalar that is a value. -/
def scalarKey (plain : Bool) (text : String) : Except Problem Key :=
  if plain then do
    match ← meaning text with
    | .value value =>
        match value.toKey? with
        | some key => pure key
        | none => .error .shapeless
    | _ => .error .shapeless
  else .ok (.text text)

/-- A key takes its value, or marks that others are to be merged in. -/
inductive EntryName where
  | key (key : Key)
  | merge

def nameOf : Composed → Except Problem EntryName
  | .scalar true "=" => .ok (.key (.text "="))
  | .scalar true "<<" => .ok .merge
  | .scalar plain text => do pure (.key (← scalarKey plain text))
  | _ => .error .shapeless

/-- The entries of a mapping that is being read. -/
abbrev Parts := List (Key × Document)

/-- The mappings that a value merges in, of which the first ones count most. -/
def mergedEntries : Document → Except Problem Parts
  | .mapping _ entries => .ok entries
  | .list _ items =>
      items.foldr
        (fun item known => do
          match item with
          | .mapping _ entries => pure ((← known) ++ entries)
          | _ => .error .shapeless)
        (.ok [])
  | _ => .error .shapeless

/-- A problem, and how many collections it is inside of. -/
structure Found where
  depth : Nat
  problem : Problem

/-- Two results. Of two problems the one inside fewer collections counts, and of equals the first. -/
def together {A B : Type} (first : Except Found A) (second : Except Found B) :
    Except Found (A × B) :=
  match first, second with
  | .ok one, .ok two => .ok (one, two)
  | .error one, .error two => .error (if two.depth < one.depth then two else one)
  | .error one, .ok _ => .error one
  | .ok _, .error two => .error two

mutual
/-- The document of a node inside so many collections. A key that comes again takes its last value. -/
def nodeDocument (depth : Nat) : Composed → Except Found Document
  | .scalar plain text => ((scalarKey plain text).map .scalar).mapError (Found.mk depth)
  | .list mark items => (itemDocuments (depth + 1) items).map (.list (some mark))
  | .mapping mark entries =>
      (entryDocuments (depth + 1) entries).map fun (merged, own) =>
        .mapping (some mark) (Entries.putAll (Entries.putAll [] merged) own)

def itemDocuments (depth : Nat) : List Composed → Except Found (List Document)
  | [] => .ok []
  | item :: rest =>
      (together (nodeDocument depth item) (itemDocuments depth rest)).map fun (document, others) =>
        document :: others

/-- The entries that are merged in, and the entries of the mapping itself. What is merged in counts
as if it stood in the mapping. -/
def entryDocuments (depth : Nat) : List (Composed × Composed) → Except Found (Parts × Parts)
  | [] => .ok ([], [])
  | (name, node) :: rest =>
      let others := entryDocuments depth rest
      match nameOf name with
      | .error problem =>
          (together (.error ⟨depth, problem⟩) others).map fun (entries, _) => (entries, [])
      | .ok (.key key) =>
          (together (nodeDocument depth node) others).map fun (document, merged, own) =>
            (merged, (key, document) :: own)
      | .ok .merge =>
          let outer := match node with
            | .list _ _ => depth - 2
            | _ => depth - 1
          let mixed := do
            (mergedEntries (← nodeDocument outer node)).mapError (Found.mk depth)
          (together mixed others).map fun (first, merged, own) => (first ++ merged, own)
end

/-- The document of a text, if it has one. -/
def readDocument (text : String) : Except Problem Document := do
  let known ← tokens text
  if deepest < depthOf known then .error .deep
  else
    match composeTokens known with
    | none => .error .shapeless
    | some node => (nodeDocument 1 node).mapError Found.problem

end ChipEight.Yaml
