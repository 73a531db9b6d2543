/-
This file goes through the instructions that move the counter: skips, jumps, calls and returns.
-/

import ChipEight.Proofs.Machine.Orderly

namespace ChipEight.Machine

variable {machine : Machine}

/-- A machine with another counter, after an instruction that moves it. -/
theorem moved_orderly (valid : machine.WellFormed) {counter : Int}
    (fits : 0x200 ≤ counter ∧ counter ≤ 0x1002 ∧ counter % 2 = 0) :
    machine.Orderly (applied { machine with counter := counter }) :=
  applied_orderly { valid with counter := fits } (.refl _)

theorem skipIf_orderly (valid : machine.WellFormed) (past : IsReturnAddress machine.counter)
    (condition : Bool) : machine.Orderly (machine.skipIf condition) := by
  obtain ⟨low, high, even⟩ := past
  unfold skipIf
  split
  · exact moved_orderly valid ⟨by omega, by omega, by omega⟩
  · exact applied_orderly valid (.refl _)

theorem jump_orderly (valid : machine.WellFormed) (target : Address) :
    machine.Orderly (machine.jump target) := by
  unfold jump
  split
  case isTrue allowed =>
    obtain ⟨low, high, even⟩ := (isProgramAddress_iff _).mp allowed
    exact moved_orderly valid ⟨low, by omega, even⟩
  case isFalse => exact reject_orderly valid fun _ => id

theorem jumpFrom_orderly (valid : machine.WellFormed) (base : Address) :
    machine.Orderly (machine.jumpFrom base) := by
  unfold jumpFrom
  dsimp only
  split
  case isTrue allowed =>
    obtain ⟨low, high, even⟩ := (isProgramAddress_iff _).mp allowed
    exact moved_orderly valid ⟨low, by omega, even⟩
  case isFalse => exact reject_orderly valid fun _ => id

/-- The stack has a slot for each depth below its size. -/
theorem slot_inside {depth : Int} (low : 0 ≤ depth) (high : depth < 16) (missing : Gap) :
    ∃ slot : Fin stackSize, (slot.val : Int) = depth ∧
      Slice.index stackSize depth missing = .ok slot := by
  have inside : depth.toNat < stackSize := by unfold stackSize; omega
  have limit : Nat.pow 2 (64 - 1) = 9223372036854775808 := rfl
  have near : Slice.isIndex depth = true := by
    simp only [Slice.isIndex, Bits.isSigned, Bool.and_eq_true, decide_eq_true_eq, limit]
    omega
  have found : Slice.index? stackSize depth = some ⟨depth.toNat, inside⟩ := by
    unfold Slice.index?
    simp only [if_neg (show ¬ depth < 0 by omega)]
    rw [dif_pos ⟨low, by omega⟩]
  refine ⟨⟨depth.toNat, inside⟩, Int.toNat_of_nonneg low, ?_⟩
  unfold Slice.index
  rw [if_pos near, found]

/-- The machine inside a call, whose slot of the stack holds the address to return to. -/
def called (machine : Machine) (target : Address) (slot : Fin stackSize) : Machine :=
  { machine with
    stack := machine.stack.set slot machine.counter slot.isLt
    depth := machine.depth + 1
    counter := target.val }

/-- The machine after the return to the address in a slot. -/
def returned (machine : Machine) (slot : Fin stackSize) : Machine :=
  { machine with
    depth := machine.depth - 1
    counter := machine.stack.get slot }

/-- A call is rejected for its target or for a full stack, or it takes the slot at the depth. -/
theorem call_cases (low : 0 ≤ machine.depth) (high : machine.depth ≤ 16) (target : Address) :
    machine.call target = machine.reject (.callTarget target) ∨
    (machine.depth = 16 ∧ machine.call target = machine.reject .stackFull) ∨
    ∃ slot : Fin stackSize, (slot.val : Int) = machine.depth ∧
      isProgramAddress target.val = true ∧
      machine.call target = applied (machine.called target slot) := by
  unfold call
  split
  case isTrue => exact .inl rfl
  case isFalse allowed =>
    right
    split
    case isTrue full =>
      unfold stackSize at full
      exact .inl ⟨by omega, rfl⟩
    case isFalse room =>
      unfold stackSize at room
      obtain ⟨slot, atDepth, found⟩ := slot_inside low (by omega) .listPlace
      rw [found]
      exact .inr ⟨slot, atDepth, by simpa using allowed, rfl⟩

/-- A return finds no call open, or it takes the slot below the depth. -/
theorem leave_cases (low : 0 ≤ machine.depth) (high : machine.depth ≤ 16) :
    (machine.depth = 0 ∧ machine.leave = machine.halt .stackEmpty) ∨
    ∃ slot : Fin stackSize, (slot.val : Int) = machine.depth - 1 ∧
      machine.leave = if isProgramAddress machine.stack[slot] then applied (machine.returned slot)
        else (machine.returned slot).halt (.returnTarget machine.stack[slot]) := by
  unfold leave
  split
  case isTrue empty => exact .inl ⟨by simpa using empty, rfl⟩
  case isFalse nested =>
    have deep : machine.depth ≠ 0 := by simpa using nested
    obtain ⟨slot, below, found⟩ :=
      @slot_inside (machine.depth - 1) (by omega) (by omega) .listItem
    dsimp only
    rw [found]
    exact .inr ⟨slot, below, rfl⟩

/-- The address after the call goes on top of those of the calls before. -/
theorem WellFormed.called (valid : machine.WellFormed) (past : IsReturnAddress machine.counter)
    {target : Address} (allowed : isProgramAddress target.val = true) {slot : Fin stackSize}
    (atDepth : (slot.val : Int) = machine.depth) : (machine.called target slot).WellFormed := by
  obtain ⟨low, high, even⟩ := (isProgramAddress_iff _).mp allowed
  have inside : slot.val < 16 := slot.isLt
  refine { valid with counter := ⟨low, ?_, even⟩, depth := ⟨?_, ?_⟩, stack := ?_ }
  · simp only [Machine.called]; omega
  · simp only [Machine.called]; omega
  · simp only [Machine.called]; omega
  · intro other below
    simp only [Machine.called] at below
    change IsReturnAddress ((machine.stack.set slot.val machine.counter inside)[other.val])
    rw [Vector.getElem_set]
    split
    · exact past
    · exact valid.stack other (by omega)

/-- The slot that is left lies below the depth, so it holds a return address. -/
theorem WellFormed.returned (valid : machine.WellFormed) {slot : Fin stackSize}
    (below : (slot.val : Int) = machine.depth - 1) : (machine.returned slot).WellFormed := by
  obtain ⟨-, most⟩ := valid.depth
  have held := (valid.stack slot (by omega)).fits
  refine { valid with counter := held, depth := ⟨?_, ?_⟩, stack := ?_ }
  · simp only [Machine.returned]; omega
  · simp only [Machine.returned]; omega
  · intro other deeper
    simp only [Machine.returned] at deeper
    exact valid.stack other (by omega)

theorem call_orderly (valid : machine.WellFormed) (past : IsReturnAddress machine.counter)
    (target : Address) : machine.Orderly (machine.call target) := by
  rcases call_cases valid.depth.1 valid.depth.2 target with
    outside | ⟨-, full⟩ | ⟨slot, atDepth, allowed, goes⟩
  · rw [outside]
    exact reject_orderly valid fun _ => id
  · rw [full]
    exact reject_orderly valid fun _ => id
  · rw [goes]
    exact applied_orderly (valid.called past allowed atDepth) (.refl _)

theorem leave_orderly (valid : machine.WellFormed) : machine.Orderly machine.leave := by
  rcases leave_cases valid.depth.1 valid.depth.2 with ⟨-, empty⟩ | ⟨slot, below, goes⟩
  · rw [empty]
    exact halt_orderly valid (.refl _) id
  · rw [goes]
    split
    · exact applied_orderly (valid.returned below) (.refl _)
    · apply halt_orderly (valid.returned below)
      · exact .refl _
      · exact id

end ChipEight.Machine
