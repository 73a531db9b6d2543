/-
This file numbers the bytes of a generator. Each step yields sixty-four bits, and these two bytes: the
highest eight bits of the low half, and then those of the high half.
-/

import ChipEight.RandomBytes

namespace ChipEight.RandomBytes

/-- The state after so many steps. -/
def stateAfter (source : RandomBytes) : Nat → BitVec 128
  | 0 => source.state
  | count + 1 => source.stateAfter count * factor + source.increment

/-- The byte with so many before it, of a generator that starts with a step. -/
def byteAt (source : RandomBytes) (before : Nat) : UInt8 :=
  let bits := output (source.stateAfter (before / 2 + 1))
  UInt8.ofBitVec (bits.extractLsb' (if before % 2 = 0 then 24 else 56) 8)

/-- The generator after so many bytes. -/
def drawn (source : RandomBytes) : Nat → RandomBytes
  | 0 => source
  | count + 1 => (source.drawn count).next.2

/-- The generator has used its last word up, so its next byte takes a step. -/
def IsWhole (source : RandomBytes) : Prop := source.spare = none

variable {source : RandomBytes}

-- The generator is taken apart so that nothing has to compare its state before and after the step.
theorem step_spare (source : RandomBytes) : source.step.spare = source.spare := by
  cases source
  rfl

theorem step_increment (source : RandomBytes) : source.step.increment = source.increment := by
  cases source
  rfl

theorem ofSeed_isWhole (seed : Nat) : (ofSeed seed).IsWhole := by
  unfold ofSeed ofWords
  split
  · unfold IsWhole
    simp only [step_spare]
  · rfl

theorem IsWhole.step (whole : source.IsWhole) : source.step.IsWhole :=
  (step_spare source).trans whole

theorem IsWhole.used (whole : source.IsWhole) : { source with spare := none } = source := by
  cases source
  cases whole
  rfl

theorem stateAfter_step (source : RandomBytes) (count : Nat) :
    source.step.stateAfter count = source.stateAfter (count + 1) := by
  induction count with
  | zero => rfl
  | succ count ih => rw [stateAfter, ih, step_increment, ← stateAfter]

/-- A step takes two bytes. -/
theorem byteAt_step (source : RandomBytes) (before : Nat) :
    source.step.byteAt before = source.byteAt (before + 2) := by
  have word : (before + 2) / 2 = before / 2 + 1 := by omega
  have half : (before + 2) % 2 = before % 2 := by omega
  unfold byteAt
  rw [stateAfter_step, word, half]

/-- The highest byte of the half that starts at a bit. -/
theorem topByte_half (bits : BitVec 64) (start : Nat) :
    topByte (UInt32.ofBitVec (bits.extractLsb' start 32)) =
      UInt8.ofBitVec (bits.extractLsb' (start + 24) 8) := by
  apply UInt8.eq_of_toBitVec_eq
  apply BitVec.eq_of_getElem_eq
  intro place inside
  have within : 24 + place < 32 := by omega
  simp [topByte, Nat.add_assoc, within]

/-- The half of a word that is left after its first byte. -/
def highHalf (source : RandomBytes) : UInt32 :=
  UInt32.ofBitVec ((output source.step.state).extractLsb' 32 32)

theorem byteAt_zero (source : RandomBytes) :
    source.byteAt 0 = topByte (UInt32.ofBitVec ((output source.step.state).extractLsb' 0 32)) :=
  (topByte_half _ 0).symm

theorem byteAt_one (source : RandomBytes) : source.byteAt 1 = topByte source.highHalf :=
  (topByte_half _ 32).symm

theorem IsWhole.next (whole : source.IsWhole) :
    source.next = (source.byteAt 0, { source.step with spare := some source.highHalf }) := by
  unfold RandomBytes.next
  rw [show source.spare = none from whole, byteAt_zero]
  rfl

/-- Half a word that is left gives the next byte, and takes no step. -/
theorem next_spare (source : RandomBytes) (word : UInt32) :
    RandomBytes.next { source with spare := some word } =
      (topByte word, { source with spare := none }) := by
  cases source
  rfl

/-- The second byte of a word leaves the generator after a step. -/
theorem IsWhole.next_next (whole : source.IsWhole) :
    source.next.2.next = (source.byteAt 1, source.step) := by
  rw [whole.next, byteAt_one]
  dsimp only
  rw [next_spare, whole.step.used]

theorem drawn_add (source : RandomBytes) (first second : Nat) :
    source.drawn (first + second) = (source.drawn first).drawn second := by
  induction second with
  | zero => rfl
  | succ second ih => exact congrArg (fun source => source.next.2) ih

/-- The bytes come in the order of their numbers, two for each step. -/
theorem next_drawn {source : RandomBytes} (whole : source.IsWhole) (count : Nat) :
    (source.drawn count).next.1 = source.byteAt count := by
  match count with
  | 0 => exact congrArg Prod.fst whole.next
  | 1 => exact congrArg Prod.fst whole.next_next
  | count + 2 =>
      have stepped : source.drawn 2 = source.step := congrArg Prod.snd whole.next_next
      rw [Nat.add_comm count 2, drawn_add, stepped, next_drawn whole.step count, byteAt_step,
        Nat.add_comm count 2]

/-- The first bytes of the seed that sessions have unless they are given another one. -/
example : (List.range 8).map (ofSeed 12345).byteAt = [178, 58, 201, 81, 52, 204, 164, 173] := by cbv

/-- A seed of two words. -/
example : (List.range 4).map (ofSeed 4294967296).byteAt = [133, 227, 254, 142] := by cbv

end ChipEight.RandomBytes
