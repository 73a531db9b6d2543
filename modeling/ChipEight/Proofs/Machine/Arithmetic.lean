/-
This file does the arithmetic of two registers. A result and its flag together are the exact sum, difference or shift
of the values before. The flag register is written first, so as a destination it loses the flag to the result.
-/

import ChipEight.Proofs.Instruction.Word
import ChipEight.Proofs.Machine.Decoding

namespace ChipEight

open Machine (IsByte)

namespace Operation

/-- The operations that write the flag. -/
def flagging : List Operation := [.add, .subtract, .halve, .subtractFrom, .double]

/-- What the flag has to tell of two values: that their sum is no byte, that nothing is borrowed, or the bit that is
shifted out. -/
def told (first second : Int) : Operation → Bool
  | add => 255 < first + second
  | subtract => second ≤ first
  | halve => first.toNat.testBit 0
  | subtractFrom => first ≤ second
  | double => first.toNat.testBit 7
  | _ => false

/-- The result of two values is exact if the flag stands for the bit that no byte has room for. -/
def Exact (first second result mark : Int) : Operation → Prop
  | copy => result = second
  | or => ∀ bit, result.toNat.testBit bit = (first.toNat.testBit bit || second.toNat.testBit bit)
  | and => ∀ bit, result.toNat.testBit bit = (first.toNat.testBit bit && second.toNat.testBit bit)
  | xor => ∀ bit, result.toNat.testBit bit = (first.toNat.testBit bit ^^ second.toNat.testBit bit)
  | add => result + 256 * mark = first + second
  | subtract => result = first - second + 256 * (1 - mark)
  | halve => 2 * result + mark = first
  | subtractFrom => result = second - first + 256 * (1 - mark)
  | double => result + 256 * mark = 2 * first

/-- A bit of a number, as a number. -/
theorem flag_testBit (value : Nat) {bit weight : Nat} (power : Nat.pow 2 bit = weight) :
    Machine.flag (value.testBit bit) = ((value / weight % 2 : Nat) : Int) := by
  rw [Nat.testBit_eq_decide_div_mod_eq, show 2 ^ bit = weight from power]
  rcases Nat.mod_two_eq_zero_or_one (value / weight) with clear | set
  · rw [clear]
    rfl
  · rw [set]
    rfl

/-- The operations that write the flag write what it has to tell. -/
theorem combined_told (operation : Operation) {first : Int} (byte : IsByte first) (second : Int) :
    (Machine.combined operation first second).1 =
      if operation ∈ flagging then some (Machine.flag (operation.told first second)) else none := by
  obtain ⟨value, small, rfl⟩ := byte.exists_nat
  cases operation with
  | copy | or | and | xor => rfl
  | add | subtract | subtractFrom => rfl
  | halve =>
      change some ((value : Int) % 2) = some (Machine.flag (value.testBit 0))
      rw [flag_testBit value (show Nat.pow 2 0 = 1 from rfl), Nat.div_one]
      rfl
  | double =>
      change some ((value : Int) / 128 % 2) = some (Machine.flag (value.testBit 7))
      rw [flag_testBit value (show Nat.pow 2 7 = 128 from rfl)]
      rfl

/-- Together with what the flag has to tell each result is exact. -/
theorem combined_exact (operation : Operation) {first second : Int} (low : IsByte first) (high : IsByte second) :
    operation.Exact first second (Machine.combined operation first second).2
      (Machine.flag (operation.told first second)) := by
  obtain ⟨a, aSmall, rfl⟩ := low.exists_nat
  obtain ⟨b, bSmall, rfl⟩ := high.exists_nat
  cases operation with
  | copy => rfl
  | or => exact fun bit => Nat.testBit_or a b bit
  | and => exact fun bit => Nat.testBit_and a b bit
  | xor => exact fun bit => Nat.testBit_xor a b bit
  | add | subtract | subtractFrom =>
      simp only [Exact, Machine.combined, told, Machine.flag, Machine.lowByte, decide_eq_true_eq]
      split <;> omega
  | halve =>
      change 2 * ((a : Int) / 2) + Machine.flag (a.testBit 0) = a
      rw [flag_testBit a (show Nat.pow 2 0 = 1 from rfl)]
      omega
  | double =>
      change ((a : Int) * 2) % 256 + 256 * Machine.flag (a.testBit 7) = 2 * (a : Int)
      rw [flag_testBit a (show Nat.pow 2 7 = 128 from rfl)]
      omega

/-- The values whose result is just what the flag has to tell. -/
def Coincides (first second : Int) : Operation → Prop
  | add => first + second = 0 ∨ first + second = 257
  | subtract => first = second + 1
  | halve => first = 0 ∨ first = 3
  | subtractFrom => second = first + 1
  | double => first = 0
  | _ => False

theorem Exact.eq_mark_iff {operation : Operation} {first second result mark : Int}
    (whole : operation.Exact first second result mark) (flags : operation ∈ flagging) (low : IsByte first)
    (high : IsByte second) (byte : IsByte result) (bit : mark = 0 ∨ mark = 1) :
    result = mark ↔ operation.Coincides first second := by
  unfold IsByte at low high byte
  cases operation with
  | copy | or | and | xor => exact absurd flags (by decide)
  | add | subtract | halve | subtractFrom | double =>
      simp only [Exact] at whole
      simp only [Coincides]
      omega

end Operation

namespace Machine

variable {machine : Machine}

/-- All registers hold values of eight bits. -/
def HoldsBytes (machine : Machine) : Prop := ∀ place, IsByte (machine.register place)

instance (machine : Machine) : Decidable machine.HoldsBytes :=
  inferInstanceAs (Decidable (∀ place, IsByte (machine.register place)))

theorem flag_cases (condition : Bool) : flag condition = 0 ∨ flag condition = 1 := by
  cases condition <;> decide

theorem perform_word (machine : Machine) (operation : Operation) (x y : Register) :
    machine.perform (operation.word x y) = applied (machine.combine operation x y) :=
  machine.perform_spelled (operation.spells_word x y)

/-- The result is written last, so it is there also if its register is the flag register. -/
theorem register_combine (machine : Machine) (operation : Operation) (x y place : Register) :
    (machine.combine operation x y).register place =
      if x = place then (combined operation (machine.register x) (machine.register y)).2
      else if flagRegister = place then
        (combined operation (machine.register x) (machine.register y)).1.getD (machine.register place)
      else machine.register place := by
  unfold combine
  dsimp only
  rw [register_setRegister]
  split
  case isTrue => rfl
  case isFalse =>
    split
    case h_1 value found =>
      rw [register_setRegister, found]
      rfl
    case h_2 none =>
      rw [none]
      exact (ite_self _).symm

theorem HoldsBytes.combine (bytes : machine.HoldsBytes) (operation : Operation) (x y : Register) :
    (machine.combine operation x y).HoldsBytes := by
  intro place
  obtain ⟨flagged, result⟩ := combined_isByte operation (bytes x) (bytes y)
  rw [register_combine]
  split
  · exact result
  · split
    · cases found : (combined operation (machine.register x) (machine.register y)).1 with
      | none => exact bytes place
      | some value => exact flagged value found
    · exact bytes place

/-- The register that is named first holds the result of the values before, whatever register it is. -/
theorem combine_exact (bytes : machine.HoldsBytes) (operation : Operation) (x y : Register) :
    operation.Exact (machine.register x) (machine.register y) ((machine.combine operation x y).register x)
      (flag (operation.told (machine.register x) (machine.register y))) := by
  rw [register_combine, if_pos rfl]
  exact operation.combined_exact (bytes x) (bytes y)

/-- The flag is there if the result has another register, and else only the result. -/
theorem combine_flag (bytes : machine.HoldsBytes) {operation : Operation} (flags : operation ∈ Operation.flagging)
    {x : Register} (other : x ≠ flagRegister) (y : Register) :
    (machine.combine operation x y).register flagRegister =
      flag (operation.told (machine.register x) (machine.register y)) := by
  rw [register_combine, if_neg other, if_pos rfl, operation.combined_told (bytes x), if_pos flags]
  rfl

/-- What an operation does to the registers if its result is not put into the flag register. -/
structure Computes (operation : Operation) (x y : Register) (before after : Machine) : Prop where
  result : operation.Exact (before.register x) (before.register y) (after.register x) (after.register flagRegister)
  flagged : operation ∈ Operation.flagging → after.register flagRegister = 0 ∨ after.register flagRegister = 1
  unflagged : operation ∉ Operation.flagging → after.register flagRegister = before.register flagRegister
  bytes : after.HoldsBytes
  others : ∀ place, place ≠ x → place ≠ flagRegister → after.register place = before.register place

theorem combine_computes (bytes : machine.HoldsBytes) (operation : Operation) {x : Register}
    (other : x ≠ flagRegister) (y : Register) :
    Computes operation x y machine (machine.combine operation x y) where
  result := by
    have whole := combine_exact bytes operation x y
    by_cases flags : operation ∈ Operation.flagging
    · rwa [combine_flag bytes flags other]
    · cases operation with
      | copy | or | and | xor => exact whole
      | add | subtract | halve | subtractFrom | double => exact absurd (by decide) flags
  flagged flags := by
    rw [combine_flag bytes flags other]
    exact flag_cases _
  unflagged plain := by
    rw [register_combine, if_neg other, if_pos rfl, operation.combined_told (bytes x), if_neg plain]
    rfl
  bytes := bytes.combine operation x y
  others place apart unflagged := by
    rw [register_combine, if_neg apart.symm, if_neg unflagged.symm]

/-- Of any registers with bytes: an operation that writes the flag is applied, its result is exact with what the flag
has to tell, and the flag register tells it if it is not the register of the result, or if the values are such that
the result is the same. -/
theorem flag_told_iff (bytes : machine.HoldsBytes) {operation : Operation} (flags : operation ∈ Operation.flagging)
    (x y : Register) :
    let performed := machine.perform (operation.word x y)
    let after := performed.machine
    let mark := flag (operation.told (machine.register x) (machine.register y))
    performed.result = .ok .applied ∧
    operation.Exact (machine.register x) (machine.register y) (after.register x) mark ∧
    (after.register flagRegister = mark ↔
      x ≠ flagRegister ∨ operation.Coincides (machine.register x) (machine.register y)) := by
  intro performed after mark
  have goes : performed = applied (machine.combine operation x y) := machine.perform_word operation x y
  have same : after = machine.combine operation x y := congrArg Outcome.machine goes
  have result : operation.Exact (machine.register x) (machine.register y) (after.register x) mark :=
    same ▸ combine_exact bytes operation x y
  refine ⟨congrArg Outcome.result goes, result, ?_⟩
  by_cases other : x = flagRegister
  · have byte : IsByte (after.register x) := same ▸ bytes.combine operation x y x
    rw [← other, result.eq_mark_iff flags (bytes x) (bytes y) byte (flag_cases _)]
    simp
  · have told : after.register flagRegister = mark := same ▸ combine_flag bytes flags other y
    exact iff_of_true told (.inl other)

/-- A new machine that has put 200 into the flag register and 100 into another one. -/
def flagLaden : Machine :=
  (((new (.blank 8 4) (.ofSeed 12345)).perform 0x6fc8).machine.perform 0x6164).machine

/-- The flag tells of a sum that is put elsewhere. -/
theorem flag_told_iff_sum :
    flagLaden.HoldsBytes ∧ Operation.add ∈ Operation.flagging ∧
      (flagLaden.perform (Operation.add.word 0x1 flagRegister)).machine.register flagRegister = 1 := by
  have bytes : flagLaden.HoldsBytes := by decide
  obtain ⟨-, -, told⟩ := flag_told_iff bytes (show Operation.add ∈ Operation.flagging by decide) 0x1 flagRegister
  exact ⟨bytes, by decide, told.mpr (.inl (by decide))⟩

/-- The flag does not tell of every sum: where the flag register is named first, 200 and 100 leave 44 in it. -/
theorem sum_untold :
    ¬ ∀ machine : Machine, machine.HoldsBytes → ∀ x y : Register,
      ((machine.perform (Operation.add.word x y)).machine.register flagRegister = 1 ↔
        255 < machine.register x + machine.register y) := by
  intro told
  have carried := told flagLaden (by decide) flagRegister 0x1
  have left : (flagLaden.perform (Operation.add.word flagRegister 0x1)).machine.register flagRegister = 44 := rfl
  rw [left] at carried
  exact absurd (carried.mpr (by decide)) (by decide)

end Machine

end ChipEight
