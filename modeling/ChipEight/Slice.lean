/-
This file holds the rules for places in a sequence: negative ones count from the end, and the ends of
a slice are moved into the sequence.
-/

import ChipEight.Bits
import ChipEight.Fault

namespace ChipEight.Slice

/-- One end of a slice of a sequence of `length` items. -/
def clamp (length : Nat) (place : Int) : Nat :=
  if place < 0 then (place + length).toNat else min place.toNat length

/-- The items from `start` up to `stop`; an end that is not given is that of the sequence. -/
def ofList {A : Type} (items : List A) (start stop : Option Int) : List A :=
  let first := (start.map (clamp items.length)).getD 0
  let last := (stop.map (clamp items.length)).getD items.length
  (items.take last).drop first

/-- Places beyond these cannot be asked for. -/
def isIndex (place : Int) : Bool :=
  Bits.isSigned 64 place

/-- The place counted from the start, if the sequence has it. -/
def index? (length : Nat) (place : Int) : Option (Fin length) :=
  let counted := if place < 0 then place + length else place
  if inside : 0 ≤ counted ∧ counted < length then some ⟨counted.toNat, by omega⟩ else none

/-- The place counted from the start, or the reason why the sequence does not have it. -/
def index (length : Nat) (place : Int) (missing : Gap) : Except Fault (Fin length) :=
  if isIndex place then
    match index? length place with
    | some found => .ok found
    | none => .error (.gap missing)
  else .error (.gap .beyondIndexes)

theorem clampAtMost (length : Nat) (place : Int) : clamp length place ≤ length := by
  unfold clamp
  split <;> omega

end ChipEight.Slice
