/-
This file puts the nodes of YAML together: an alias is the node of its anchor, and each list and mapping has
a number of its own, so that it is still known for one where it stands in several places.
-/

import ChipEight.Yaml.Node

namespace ChipEight.Yaml

/-- A node whose aliases are resolved. -/
inductive Composed where
  | scalar (plain : Bool) (text : String)
  | list (mark : Nat) (items : List Composed)
  | mapping (mark : Nat) (entries : List (Composed × Composed))
  deriving Repr

/-- How many lists and mappings there are so far, and the nodes of the anchors. -/
structure Composing where
  count : Nat
  anchors : List (String × Composed)

namespace Composing

def initial : Composing := ⟨0, []⟩

/-- The number of the next list or mapping. -/
def next (composing : Composing) : Composing × Nat :=
  ({ composing with count := composing.count + 1 }, composing.count)

/-- No anchor comes twice. -/
def anchor (composing : Composing) (name : String) (node : Composed) : Option Composing :=
  if (composing.anchors.lookup name).isSome then none
  else some { composing with anchors := (name, node) :: composing.anchors }

mutual
/-- Resolves the aliases of a node, all of which come after their anchors. An alias inside the node of its own
anchor is refused. -/
def compose (composing : Composing) : Node → Option (Composing × Composed)
  | .scalar plain text => some (composing, .scalar plain text)
  | .alias name => (composing.anchors.lookup name).map fun node => (composing, node)
  | .anchored name node => do
      let (after, composed) ← compose composing node
      pure (← after.anchor name composed, composed)
  | .list items => do
      let (opened, mark) := composing.next
      let (after, composed) ← composeItems opened items
      pure (after, .list mark composed)
  | .mapping entries => do
      let (opened, mark) := composing.next
      let (after, composed) ← composeEntries opened entries
      pure (after, .mapping mark composed)

def composeItems (composing : Composing) : List Node → Option (Composing × List Composed)
  | [] => some (composing, [])
  | item :: rest => do
      let (next, first) ← compose composing item
      let (after, others) ← composeItems next rest
      pure (after, first :: others)

def composeEntries (composing : Composing) :
    List (Node × Node) → Option (Composing × List (Composed × Composed))
  | [] => some (composing, [])
  | (name, node) :: rest => do
      let (named, first) ← compose composing name
      let (next, value) ← compose named node
      let (after, others) ← composeEntries next rest
      pure (after, (first, value) :: others)
end

end Composing

/-- The composed node of the tokens of one document. -/
def composeTokens (tokens : List Token) : Option Composed := do
  let (_, node) ← Composing.initial.compose (← Node.ofTokens tokens)
  pure node

end ChipEight.Yaml
