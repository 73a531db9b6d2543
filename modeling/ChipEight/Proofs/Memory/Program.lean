/-
This file follows programs into the memory: which of them are taken, and what the memory holds at each
address afterwards.
-/

import ChipEight.Proofs.Memory.Access

namespace ChipEight.Memory

/-- A length is noted unless it is that of a program that is not empty and fits. -/
theorem lengthNote?_eq_none_iff (length : Nat) :
    lengthNote? length = none ↔ 1 ≤ length ∧ length ≤ largestProgram := by
  unfold lengthNote?
  split
  case isTrue empty =>
    have count := beq_iff_eq.mp empty
    simp only [reduceCtorEq, false_iff]
    omega
  case isFalse filled =>
    have count : ¬ (length : Int) = 0 := fun empty => filled (beq_iff_eq.mpr empty)
    split
    case isTrue long => simp only [reduceCtorEq, false_iff]; omega
    case isFalse fits => simp only [true_iff]; omega

/-- A program that fits is found in its area. -/
theorem withProgram_byteAt (memory : Memory) {program : List UInt8}
    (fits : program.length ≤ largestProgram) {offset : Nat} (inside : offset < program.length) :
    (memory.withProgram program).byteAt (programStart + offset : Nat) = program[offset] := by
  have within : programStart + offset < size := by
    unfold largestProgram at fits
    omega
  have found : cell? (programStart + offset : Nat) = some ⟨programStart + offset, within⟩ :=
    dif_pos ⟨by omega, by omega⟩
  exact (byteAt_found _ found).trans (getElem_replaceFrom_add _ programStart inside within)

theorem withProgram_zones (memory : Memory) (program : List UInt8) :
    (memory.withProgram program).zones = memory.zones := by
  unfold withProgram
  rfl

/-- The addresses before the program area are left alone by programs. -/
theorem withProgram_byteAt_before (memory : Memory) (program : List UInt8) {place : Int}
    (before : place < programStart) :
    (memory.withProgram program).byteAt place = memory.byteAt place := by
  cases found : cell? place with
  | none => simp only [byteAt, found]
  | some cell =>
      have number := cell?_val found
      have early : ¬ programStart ≤ cell.val := by omega
      rw [byteAt_found _ found, byteAt_found _ found]
      change (replaceFrom _ programStart program)[cell.val] = memory.bytes[cell.val]
      rw [getElem_replaceFrom, if_neg early, getElem_replaceFrom, if_neg early]

/-- Behind a program its area is cleared, and there is nothing behind the area. -/
theorem withProgram_byteAt_behind (memory : Memory) (program : List UInt8) {place : Int}
    (behind : ((programStart + program.length : Nat) : Int) ≤ place) :
    (memory.withProgram program).byteAt place = 0 := by
  cases found : cell? place with
  | none => simp only [byteAt, found]
  | some cell =>
      have number := cell?_val found
      have late : programStart ≤ cell.val := by omega
      have unreached : program.length ≤ cell.val - programStart := by omega
      have zeroed : cell.val - programStart < (List.replicate largestProgram (0 : UInt8)).length := by
        rw [List.length_replicate]
        have inside := cell.isLt
        unfold largestProgram
        omega
      refine (byteAt_found _ found).trans
        ((getElem_replaceFrom _ programStart program cell.val cell.isLt).trans ?_)
      rw [if_pos late, List.getD_eq_getElem?_getD, List.getElem?_eq_none unreached, Option.getD_none,
        getElem_replaceFrom, if_pos late, List.getD_eq_getElem?_getD,
        List.getElem?_eq_getElem zeroed, Option.getD_some, List.getElem_replicate]

/-- The program is in its area, and zeros are behind it. -/
structure HoldsProgram (memory : Memory) (program : List UInt8) : Prop where
  inside : ∀ offset (inside : offset < program.length),
    memory.byteAt (0x200 + offset : Nat) = program[offset]
  behind : ∀ place : Int, ((0x200 + program.length : Nat) : Int) ≤ place → memory.byteAt place = 0

theorem withProgram_holdsProgram (memory : Memory) {program : List UInt8}
    (fits : program.length ≤ largestProgram) :
    (memory.withProgram program).HoldsProgram program where
  inside _ inside := memory.withProgram_byteAt fits inside
  behind _ behind := memory.withProgram_byteAt_behind program behind

theorem load_value_iff (memory : Memory) (program : Option (List UInt8)) :
    (memory.load program).value = true ↔
      1 ≤ (program.getD []).length ∧ (program.getD []).length ≤ largestProgram := by
  rw [← lengthNote?_eq_none_iff]
  unfold load
  dsimp only
  split
  case h_1 note refused => simp [refused]
  case h_2 accepted => simp [accepted]

theorem load_accepted (memory : Memory) {program : Option (List UInt8)}
    (accepted : (memory.load program).value = true) :
    (memory.load program).memory = memory.withProgram (program.getD []) := by
  have fine := (lengthNote?_eq_none_iff _).mpr ((memory.load_value_iff program).mp accepted)
  unfold load
  dsimp only
  rw [fine]

theorem load_rejected (memory : Memory) {program : Option (List UInt8)}
    (rejected : (memory.load program).value = false) : (memory.load program).memory = memory := by
  unfold load at rejected ⊢
  dsimp only at rejected ⊢
  split
  case h_1 => rfl
  case h_2 accepted =>
    rw [accepted] at rejected
    cases rejected

end ChipEight.Memory
