/-
This file builds nodes from tokens of YAML: scalars, lists, and mappings of nodes to nodes, which may have
anchors, and aliases for them. A node that is left out is an empty plain scalar.
-/

import ChipEight.Yaml.Token

namespace ChipEight.Yaml

inductive Node where
  | scalar (plain : Bool) (text : String)
  | list (items : List Node)
  | mapping (entries : List (Node × Node))
  | alias (name : String)
  | anchored (name : String) (node : Node)
  deriving Repr

namespace Node

def empty : Node := .scalar true ""

/-- The next token is one of these, or there is none. -/
def endsAt (tokens : List Token) (ends : List Token) : Bool :=
  match tokens with
  | [] => true
  | token :: _ => ends.contains token

/-- A node of flow style starts here. -/
def startsFlow : List Token → Bool
  | .scalar _ _ :: _ => true
  | .flowSequence :: _ => true
  | .flowMapping :: _ => true
  | _ => false

/-- A node of block style starts here; where `loose`, a sequence need not be deeper than its key. -/
def startsBlock (loose : Bool) : List Token → Bool
  | .blockSequence :: _ => true
  | .blockMapping :: _ => true
  | .entry :: _ => loose
  | tokens => startsFlow tokens

mutual
/-- A node of block style; where `loose`, a sequence need not be deeper than its key. -/
def block (loose : Bool) : Nat → List Token → Option (Node × List Token)
  | 0, _ => none
  | fuel + 1, tokens =>
      match tokens with
      | .blockSequence :: rest => blockItems fuel [] rest
      | .blockMapping :: rest => blockEntries fuel [] rest
      | .entry :: rest => if loose then looseItems fuel [] (.entry :: rest) else none
      | .anchor name :: rest =>
          if startsBlock loose rest then do
            let (node, after) ← block loose fuel rest
            pure (.anchored name node, after)
          else some (.anchored name empty, rest)
      | _ => flow fuel tokens

/-- The items of a sequence up to its end. -/
def blockItems : Nat → List Node → List Token → Option (Node × List Token)
  | 0, _, _ => none
  | fuel + 1, read, tokens =>
      match tokens with
      | .entry :: rest =>
          if endsAt rest [.entry, .blockEnd] then blockItems fuel (empty :: read) rest
          else do
            let (item, after) ← block false fuel rest
            blockItems fuel (item :: read) after
      | .blockEnd :: rest => some (.list read.reverse, rest)
      | _ => none

/-- The items of a sequence that is not deeper than its key. -/
def looseItems : Nat → List Node → List Token → Option (Node × List Token)
  | 0, _, _ => none
  | fuel + 1, read, tokens =>
      match tokens with
      | .entry :: rest =>
          if endsAt rest [.entry, .key, .value, .blockEnd] then looseItems fuel (empty :: read) rest
          else do
            let (item, after) ← block false fuel rest
            looseItems fuel (item :: read) after
      | rest => some (.list read.reverse, rest)

/-- The entries of a mapping up to its end. -/
def blockEntries : Nat → List (Node × Node) → List Token → Option (Node × List Token)
  | 0, _, _ => none
  | fuel + 1, read, tokens =>
      match tokens with
      | .key :: rest => do
          let (name, afterName) ← blockPart fuel rest
          match afterName with
          | .value :: more => do
              let (value, after) ← blockPart fuel more
              blockEntries fuel ((name, value) :: read) after
          | others => blockEntries fuel ((name, empty) :: read) others
      | .blockEnd :: rest => some (.mapping read.reverse, rest)
      | _ => none

/-- A key or a value of a mapping. -/
def blockPart : Nat → List Token → Option (Node × List Token)
  | 0, _ => none
  | fuel + 1, tokens =>
      if endsAt tokens [.key, .value, .blockEnd] then some (empty, tokens)
      else block true fuel tokens

/-- A node of flow style. -/
def flow : Nat → List Token → Option (Node × List Token)
  | 0, _ => none
  | fuel + 1, tokens =>
      match tokens with
      | .scalar plain text :: rest => some (.scalar plain text, rest)
      | .alias name :: rest => some (.alias name, rest)
      | .anchor name :: rest =>
          if startsFlow rest then do
            let (node, after) ← flow fuel rest
            pure (.anchored name node, after)
          else some (.anchored name empty, rest)
      | .flowSequence :: rest => flowItems fuel true [] rest
      | .flowMapping :: rest => flowEntries fuel true [] rest
      | _ => none

/-- The items between brackets; a single entry of a mapping may stand as an item. -/
def flowItems : Nat → Bool → List Node → List Token → Option (Node × List Token)
  | 0, _, _, _ => none
  | fuel + 1, first, read, tokens =>
      match tokens with
      | .flowSequenceEnd :: rest => some (.list read.reverse, rest)
      | _ => do
          let opened ←
            if first then some tokens
            else match tokens with
              | .flowEntry :: rest => some rest
              | _ => none
          match opened with
          | .flowSequenceEnd :: rest => some (.list read.reverse, rest)
          | .key :: rest =>
              let (entry, after) ← flowEntry fuel .flowSequenceEnd rest
              flowItems fuel false (.mapping [entry] :: read) after
          | _ =>
              let (item, after) ← flow fuel opened
              flowItems fuel false (item :: read) after

/-- The entries between braces. -/
def flowEntries : Nat → Bool → List (Node × Node) → List Token → Option (Node × List Token)
  | 0, _, _, _ => none
  | fuel + 1, first, read, tokens =>
      match tokens with
      | .flowMappingEnd :: rest => some (.mapping read.reverse, rest)
      | _ => do
          let opened ←
            if first then some tokens
            else match tokens with
              | .flowEntry :: rest => some rest
              | _ => none
          match opened with
          | .flowMappingEnd :: rest => some (.mapping read.reverse, rest)
          | .key :: rest =>
              let (entry, after) ← flowEntry fuel .flowMappingEnd rest
              flowEntries fuel false (entry :: read) after
          | _ =>
              let (name, after) ← flow fuel opened
              flowEntries fuel false ((name, empty) :: read) after

/-- An entry of a mapping in flow style, after the mark for its key. -/
def flowEntry : Nat → Token → List Token → Option ((Node × Node) × List Token)
  | 0, _, _ => none
  | fuel + 1, closing, tokens => do
      let (name, afterName) ←
        if endsAt tokens [.value, .flowEntry, closing] then some (empty, tokens)
        else flow fuel tokens
      match afterName with
      | .value :: rest =>
          if endsAt rest [.flowEntry, closing] then some ((name, empty), rest)
          else do
            let (value, after) ← flow fuel rest
            pure ((name, value), after)
      | others => some ((name, empty), others)
end

/-- The tokens after marks for the end of a document. -/
def skipEnds (tokens : List Token) : List Token :=
  tokens.dropWhile fun token => token == .documentEnd

/-- The tokens after directives. There is one version at most, of which only the first is known, and
no handle stands for two things. -/
def afterDirectives (versioned : Bool) (handles : List String) : List Token → Option (List Token)
  | .directive (.version major) :: rest =>
      if versioned || major != 1 then none else afterDirectives true handles rest
  | .directive (.handle name) :: rest =>
      if handles.contains name then none else afterDirectives versioned (name :: handles) rest
  | .directive .other :: rest => afterDirectives versioned handles rest
  | tokens => some tokens

/-- A document without content ends here. -/
def endsDocument : List Token → Bool
  | [] => true
  | .directive _ :: _ => true
  | .documentStart :: _ => true
  | .documentEnd :: _ => true
  | _ => false

/-- The node of a document after its start, and what follows the document. -/
def document (tokens : List Token) : Option (Node × List Token) := do
  let fuel := 2 * tokens.length + 2
  let (node, after) ←
    if endsDocument tokens then some (empty, tokens)
    else block false fuel tokens
  match after with
  | .documentEnd :: rest => some (node, rest)
  | rest => some (node, rest)

/-- The node of a text with one document at most. -/
def ofTokens (tokens : List Token) : Option Node := do
  let (node, after) ←
    match tokens with
    | [] => some (empty, [])
    | .directive known :: rest => do
        match ← afterDirectives false [] (.directive known :: rest) with
        | .documentStart :: inner => document inner
        | _ => none
    | .documentStart :: inner => document inner
    | _ => do
        let (node, after) ← block false (2 * tokens.length + 2) tokens
        match after with
        | .documentEnd :: rest => pure (node, rest)
        | rest => pure (node, rest)
  if (skipEnds after).isEmpty then some node else none

end Node

/-- Collections may be this deep inside one another, on a host whose calls may be a thousand deep: each collection
takes two of them. -/
def deepest : Nat := 480

/-- How a token changes the count of the collections that are open. -/
def depthStep : Token → Int
  | .blockSequence => 1
  | .blockMapping => 1
  | .flowSequence => 1
  | .flowMapping => 1
  | .blockEnd => -1
  | .flowSequenceEnd => -1
  | .flowMappingEnd => -1
  | _ => 0

/-- The greatest count of collections that are open at one place. -/
def depthOf (tokens : List Token) : Int :=
  (tokens.foldl
    (fun (depth, most) token =>
      let next := depth + depthStep token
      (next, max most next))
    ((0 : Int), (0 : Int))).2

end ChipEight.Yaml
