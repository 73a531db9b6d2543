/-
This file shows that what lies in the interval of a number is rounded to that number.
-/

import ChipEight.Double.Shortest
import Mathlib.Tactic.Ring
import Mathlib.Tactic.SplitIfs

namespace ChipEight

namespace Double

/-! ### Bits -/

theorem fractionCount_eq : fractionCount = 4503599627370496 := rfl

theorem signBit_eq : signBit = 2048 * fractionCount := rfl

theorem infinityBits_eq : infinityBits = 2047 * fractionCount := rfl

theorem bits_ofParts (negative : Bool) (magnitude : Nat) :
    (ofParts negative magnitude).bits.toNat =
      (if negative then signBit else 0) + min magnitude infinityBits := by
  have positive := fractionCount_eq
  unfold ofParts
  rw [UInt64.toNat_ofNat', Nat.mod_eq_of_lt]
  rw [signBit_eq, infinityBits_eq]
  split <;> omega

theorem magnitudeBits_ofParts (negative : Bool) (magnitude : Nat) :
    (ofParts negative magnitude).magnitudeBits = min magnitude infinityBits := by
  unfold magnitudeBits
  rw [bits_ofParts, signBit_eq, infinityBits_eq, fractionCount_eq]
  split <;> omega

/-- A number that is put together of parts is one. -/
theorem isNan_ofParts (negative : Bool) (magnitude : Nat) :
    (ofParts negative magnitude).isNan = false := by
  unfold isNan
  rw [magnitudeBits_ofParts]
  simp

theorem isFinite_ofParts (negative : Bool) (magnitude : Nat) :
    (ofParts negative magnitude).isFinite = decide (magnitude < infinityBits) := by
  unfold isFinite
  rw [magnitudeBits_ofParts, decide_eq_decide]
  omega

/-- A number is put together of its own parts. -/
theorem ofParts_parts {number : Double} (proper : number.isNan = false) :
    ofParts number.isNegative number.magnitudeBits = number := by
  obtain ⟨bits⟩ := number
  have most : bits.toNat < 4096 * fractionCount := bits.toNat_lt
  have least : bits.toNat % signBit ≤ infinityBits :=
    Nat.not_lt.mp (of_decide_eq_false proper)
  apply congrArg mk
  rw [← UInt64.toNat_inj]
  change (ofParts _ _).bits.toNat = _
  rw [bits_ofParts]
  unfold isNegative magnitudeBits
  dsimp only
  rw [Nat.min_eq_left least]
  rw [signBit_eq, fractionCount_eq] at *
  by_cases negative : 2048 * 4503599627370496 ≤ bits.toNat
  · simp only [negative, decide_true, if_true]
    omega
  · simp only [negative, decide_false, Bool.false_eq_true, if_false]
    omega

/-- The parts of a positive finite number: a significand of fifty-three bits, which is full unless the
unit is the smallest, and the count of doublings of that unit. -/
structure Parts (number : Double) (whole steps : Nat) : Prop where
  significand : number.significand = (whole, steps)
  bits : number.magnitudeBits = steps * fractionCount + whole
  positive : 0 < whole
  full : 0 < steps → fractionCount ≤ whole
  most : whole < 2 * fractionCount
  least : steps ≤ 2045

theorem exists_parts {number : Double} (finite : number.isFinite = true) (positive : number.isZero = false) :
    ∃ whole steps, Parts number whole steps := by
  have count := fractionCount_eq
  have bound : number.magnitudeBits < 2047 * fractionCount := of_decide_eq_true finite
  have some : number.magnitudeBits ≠ 0 := by simpa [isZero] using positive
  have parts := Nat.div_add_mod number.magnitudeBits fractionCount
  have small := Nat.mod_lt number.magnitudeBits (show 0 < fractionCount by omega)
  have significand : number.significand =
      if number.magnitudeBits / fractionCount == 0 then (number.magnitudeBits % fractionCount, 0)
      else (fractionCount + number.magnitudeBits % fractionCount,
        number.magnitudeBits / fractionCount - 1) := rfl
  generalize number.magnitudeBits / fractionCount = exponent at parts significand
  generalize number.magnitudeBits % fractionCount = fraction at parts small significand
  by_cases least : exponent = 0
  · subst least
    exact ⟨fraction, 0, significand, by omega, by omega, nofun, by omega, Nat.zero_le _⟩
  · rw [if_neg (by simpa using least)] at significand
    refine ⟨_, _, significand, ?_, by omega, fun _ => Nat.le_add_right _ _, by omega, ?_⟩
    · obtain ⟨steps, rfl⟩ := Nat.exists_eq_succ_of_ne_zero least
      rw [← parts, Nat.succ_sub_one, Nat.mul_succ, Nat.mul_comm]
      omega
    · have : fractionCount * exponent < fractionCount * 2047 := by omega
      have := Nat.lt_of_mul_lt_mul_left this
      omega

/-! ### Quotients -/

end Double

/-- A quotient is rounded up if its rest is more than a half, or is a half behind an odd number. -/
theorem roundedQuotient_parts (numerator : Nat) {denominator : Nat} (positive : 0 < denominator) :
    ∃ quotient rest, denominator * quotient + rest = numerator ∧ rest < denominator ∧
      roundedQuotient numerator denominator =
        if denominator < 2 * rest ∨ 2 * rest = denominator ∧ quotient % 2 = 1 then quotient + 1
        else quotient := by
  refine ⟨numerator / denominator, numerator % denominator, Nat.div_add_mod _ _,
    Nat.mod_lt numerator positive, ?_⟩
  unfold roundedQuotient
  simp only [Bool.or_eq_true, decide_eq_true_eq, Bool.and_eq_true, beq_iff_eq]

/-- A quotient is rounded to a whole number that is at most a half away from it, and even if it is a half
away. -/
theorem roundedQuotient_eq {numerator denominator result : Nat} (positive : 0 < denominator)
    (above : 2 * (result * denominator) ≤ 2 * numerator + denominator)
    (below : 2 * numerator ≤ 2 * (result * denominator) + denominator)
    (even : 2 * (result * denominator) = 2 * numerator + denominator ∨
      2 * numerator = 2 * (result * denominator) + denominator → result % 2 = 0) :
    roundedQuotient numerator denominator = result := by
  obtain ⟨quotient, rest, rfl, small, rounded⟩ := roundedQuotient_parts numerator positive
  rw [rounded]
  have next : result ≤ quotient + 1 := by
    by_contra more
    have := Nat.mul_le_mul_right denominator (show quotient + 2 ≤ result by omega)
    rw [Nat.add_mul, Nat.mul_comm quotient] at this
    omega
  have same : quotient ≤ result := by
    by_contra less
    have := Nat.mul_le_mul_right denominator (show result + 1 ≤ quotient by omega)
    rw [Nat.add_mul, Nat.mul_comm quotient] at this
    omega
  rcases Nat.eq_or_lt_of_le same with rfl | less
  · rw [Nat.mul_comm quotient] at above below even
    rw [if_neg]
    omega
  · obtain rfl : result = quotient + 1 := by omega
    rw [Nat.add_mul, Nat.mul_comm quotient] at above below even
    rw [if_pos]
    omega

/-- A rounded quotient is at most a half away from the quotient. -/
theorem roundedQuotient_near (numerator : Nat) {denominator : Nat} (positive : 0 < denominator) :
    2 * (roundedQuotient numerator denominator * denominator) ≤ 2 * numerator + denominator ∧
      2 * numerator ≤ 2 * (roundedQuotient numerator denominator * denominator) + denominator := by
  obtain ⟨quotient, rest, rfl, small, rounded⟩ := roundedQuotient_parts numerator positive
  rw [rounded]
  split
  · rw [Nat.add_mul, Nat.mul_comm quotient]
    omega
  · rw [Nat.mul_comm quotient]
    omega

/-- The rounded quotient is one of the two whole numbers next to the quotient. -/
theorem roundedQuotient_cases (numerator denominator : Nat) :
    roundedQuotient numerator denominator = numerator / denominator ∨
      roundedQuotient numerator denominator = numerator / denominator + 1 := by
  unfold roundedQuotient
  dsimp only
  split
  · exact .inr rfl
  · exact .inl rfl

namespace Double

/-! ### Units -/

theorem doublings_eq {whole steps : Nat} (least : fractionCount * 2 ^ steps ≤ whole)
    (most : whole < 2 * fractionCount * 2 ^ steps) : doublings whole = steps := by
  have lower : 2 ^ (52 + steps) ≤ whole := by
    rw [Nat.pow_add]
    exact least
  have upper : whole < 2 ^ (52 + steps + 1) := by
    rw [Nat.pow_succ', Nat.pow_add, ← Nat.mul_assoc]
    exact most
  have positive : whole ≠ 0 := by
    have := Nat.two_pow_pos (52 + steps)
    omega
  have log : Nat.log2 whole = 52 + steps :=
    (Nat.log2_eq_iff positive).mpr ⟨lower, upper⟩
  unfold doublings
  omega

theorem doublings_small {whole : Nat} (most : whole < 2 * fractionCount) : doublings whole = 0 := by
  unfold doublings
  by_cases zero : whole = 0
  · subst zero
    rfl
  · have := (Nat.log2_lt zero).mpr (show whole < 2 ^ 53 from most)
    omega

/-- How far below a number its interval goes, in quarters of its unit: half as far as above it at the
start of a range of doublings. -/
def reach (whole steps : Nat) : Nat := if whole = fractionCount ∧ 0 < steps then 1 else 2

theorem interval_parts {number : Double} {whole steps : Nat} (parts : Parts number whole steps) :
    number.interval = ⟨(4 * whole - reach whole steps) * 2 ^ steps, 4 * whole * 2 ^ steps,
      (4 * whole + 2) * 2 ^ steps, whole % 2 == 0⟩ := by
  unfold interval reach
  rw [parts.significand]
  simp [Nat.pow_eq]

/-- What the interval of a number says of a fraction of units. -/
theorem holds_parts {number : Double} {whole steps numerator denominator : Nat}
    (parts : Parts number whole steps)
    (holds : number.interval.holds numerator denominator = true) :
    4 * (whole * (2 ^ steps * denominator)) ≤
        numerator + reach whole steps * (2 ^ steps * denominator) ∧
      numerator ≤ 4 * (whole * (2 ^ steps * denominator)) + 2 * (2 ^ steps * denominator) ∧
      (whole % 2 = 1 → 4 * (whole * (2 ^ steps * denominator)) <
        numerator + reach whole steps * (2 ^ steps * denominator) ∧
        numerator < 4 * (whole * (2 ^ steps * denominator)) + 2 * (2 ^ steps * denominator)) := by
  have low : (4 * whole - reach whole steps) * 2 ^ steps * denominator =
      4 * (whole * (2 ^ steps * denominator)) - reach whole steps * (2 ^ steps * denominator) := by
    rw [Nat.mul_assoc, Nat.sub_mul, Nat.mul_assoc]
  have high : (4 * whole + 2) * 2 ^ steps * denominator =
      4 * (whole * (2 ^ steps * denominator)) + 2 * (2 ^ steps * denominator) := by
    rw [Nat.mul_assoc, Nat.add_mul, Nat.mul_assoc]
  have smaller : reach whole steps * (2 ^ steps * denominator) ≤
      4 * (whole * (2 ^ steps * denominator)) := by
    have most : reach whole steps ≤ 4 * whole := by
      have := parts.positive
      unfold reach
      split <;> omega
    exact (Nat.mul_le_mul_right _ most).trans_eq (Nat.mul_assoc 4 _ _)
  rw [interval_parts parts] at holds
  unfold Interval.holds at holds
  simp only [low, high, beq_iff_eq] at holds
  split at holds
  case isTrue even =>
    simp only [Bool.and_eq_true, decide_eq_true_eq] at holds
    omega
  case isFalse odd =>
    simp only [Bool.and_eq_true, decide_eq_true_eq] at holds
    omega

section

variable {number : Double} {whole numerator denominator : Nat}

/-- A fraction from the start of the doublings of a number on is rounded at the unit of the number. -/
theorem rounded_inside {steps : Nat} (parts : Parts number whole steps) (positive : 0 < denominator)
    (holds : number.interval.holds (4 * numerator) denominator = true)
    (inside : steps = 0 ∨ fractionCount * 2 ^ steps ≤ numerator / denominator) :
    doublings (numerator / denominator) = steps ∧
      roundedQuotient numerator (denominator * 2 ^ steps) = whole := by
  obtain ⟨low, high, odd⟩ := holds_parts parts holds
  have count := fractionCount_eq
  have some : 0 < 2 ^ steps * denominator := Nat.mul_pos (Nat.two_pow_pos steps) positive
  constructor
  · have most := Nat.mul_le_mul_right (2 ^ steps * denominator)
      (show whole ≤ 2 * fractionCount - 1 by have := parts.most; omega)
    have upper : numerator / denominator < 2 * fractionCount * 2 ^ steps := by
      rw [Nat.div_lt_iff_lt_mul positive, Nat.mul_assoc, count]
      rw [count] at most
      omega
    rcases inside with rfl | lower
    · exact doublings_small (by simpa using upper)
    · exact doublings_eq lower upper
  · rw [Nat.mul_comm denominator]
    have two : reach whole steps ≤ 2 := by
      unfold reach
      split <;> omega
    have least := Nat.mul_le_mul_right (2 ^ steps * denominator) two
    refine roundedQuotient_eq some ?_ ?_ ?_ <;> omega

/-- A fraction below the doublings of a number in its interval is rounded at half the unit, to the number
where they start. -/
theorem rounded_below {less : Nat} (parts : Parts number whole (less + 1)) (positive : 0 < denominator)
    (holds : number.interval.holds (4 * numerator) denominator = true)
    (below : numerator / denominator < fractionCount * 2 ^ (less + 1)) :
    whole = fractionCount ∧ doublings (numerator / denominator) = less ∧
      roundedQuotient numerator (denominator * 2 ^ less) = 2 * fractionCount := by
  obtain ⟨low, high, -⟩ := holds_parts parts holds
  have count := fractionCount_eq
  have short : numerator < fractionCount * (2 ^ (less + 1) * denominator) := by
    rw [← Nat.mul_assoc, ← Nat.div_lt_iff_lt_mul positive]
    exact below
  have start : whole = fractionCount := by
    by_contra other
    have full := parts.full (Nat.succ_pos less)
    have more := Nat.mul_le_mul_right (2 ^ (less + 1) * denominator)
      (show fractionCount + 1 ≤ whole by omega)
    unfold reach at low
    rw [if_neg (fun both => other both.1)] at low
    rw [count] at more short
    omega
  have doubled : 2 ^ (less + 1) * denominator = 2 * (2 ^ less * denominator) := by
    rw [Nat.pow_succ']
    exact Nat.mul_assoc _ _ _
  have unit : 0 < 2 ^ less * denominator := Nat.mul_pos (Nat.two_pow_pos less) positive
  subst start
  unfold reach at low
  rw [if_pos ⟨rfl, Nat.succ_pos less⟩, doubled] at low
  rw [doubled] at short
  rw [count] at low short
  refine ⟨rfl, doublings_eq ?_ ?_, ?_⟩
  · rw [Nat.le_div_iff_mul_le positive, Nat.mul_assoc, count]
    omega
  · rw [Nat.div_lt_iff_lt_mul positive, Nat.mul_assoc, count]
    omega
  · rw [Nat.mul_comm denominator, count]
    refine roundedQuotient_eq unit ?_ ?_ ?_ <;> omega

/-- A fraction of units in the interval of a number is rounded to the number. -/
theorem ofUnits_near {steps : Nat} (parts : Parts number whole steps) (negative : Bool)
    (positive : 0 < denominator)
    (holds : number.interval.holds (4 * numerator) denominator = true) :
    ofUnits negative numerator denominator = ofParts negative number.magnitudeBits := by
  unfold ofUnits
  rw [parts.bits]
  dsimp only
  by_cases inside : steps = 0 ∨ fractionCount * 2 ^ steps ≤ numerator / denominator
  · obtain ⟨same, rounded⟩ := rounded_inside parts positive holds inside
    rw [same, Nat.pow_eq, rounded]
  · obtain ⟨nonzero, below⟩ := not_or.mp inside
    obtain ⟨less, rfl⟩ : ∃ less, steps = less + 1 := Nat.exists_eq_succ_of_ne_zero nonzero
    obtain ⟨rfl, same, rounded⟩ := rounded_below parts positive holds (Nat.not_le.mp below)
    have total : less * fractionCount + 2 * fractionCount =
        (less + 1) * fractionCount + fractionCount := by
      rw [Nat.add_mul less 1]
      omega
    rw [same, Nat.pow_eq, rounded, total]

end

/-- Numbers below the first that are out of range are rounded to finite ones. -/
theorem isFinite_ofUnits (negative : Bool) {numerator : Nat} (short : numerator.log2 < 2052) :
    (ofUnits negative numerator 1).isFinite = true := by
  have count := fractionCount_eq
  have fits : numerator < 2 * fractionCount * 2 ^ doublings numerator :=
    calc numerator < 2 ^ (numerator.log2 + 1) := Nat.lt_log2_self
      _ ≤ 2 ^ (53 + doublings numerator) :=
        Nat.pow_le_pow_right (by decide) (by unfold doublings; omega)
      _ = 2 * fractionCount * 2 ^ doublings numerator := Nat.pow_add 2 53 _
  have near : roundedQuotient numerator (2 ^ doublings numerator) ≤ 2 * fractionCount := by
    have quotient : numerator / 2 ^ doublings numerator < 2 * fractionCount :=
      (Nat.div_lt_iff_lt_mul (Nat.two_pow_pos _)).mpr fits
    rcases roundedQuotient_cases numerator (2 ^ doublings numerator) with same | next <;> omega
  have few : doublings numerator * fractionCount ≤ 2000 * fractionCount :=
    Nat.mul_le_mul_right _ (by unfold doublings; omega)
  unfold ofUnits
  dsimp only
  rw [Nat.div_one, Nat.one_mul, Nat.pow_eq, isFinite_ofParts, infinityBits_eq, decide_eq_true_eq]
  omega

/-- A number is too large to be rounded to a finite one if it has too many bits. -/
theorem short_of_isFinite {negative : Bool} {numerator : Nat}
    (finite : (ofUnits negative numerator 1).isFinite = true) : numerator.log2 < 2099 := by
  unfold ofUnits at finite
  rw [Nat.div_one, isFinite_ofParts, infinityBits_eq, decide_eq_true_eq] at finite
  have few : doublings numerator * fractionCount < 2047 * fractionCount :=
    Nat.lt_of_le_of_lt (Nat.le_add_right _ _) finite
  have less := Nat.lt_of_mul_lt_mul_right few
  unfold doublings at less
  omega

theorem oneUnits_eq : oneUnits = 2 ^ unitPower := by
  unfold oneUnits
  generalize unitPower = power
  rfl

/-- Numbers that fit into a fraction are rounded to finite ones. -/
theorem ofInt?_isSome {value : Int} (small : value.natAbs < fractionCount) :
    (ofInt? value).isSome = true := by
  have finite : (ofFraction (value < 0) value.natAbs 1).isFinite = true := by
    refine isFinite_ofUnits _ ?_
    have width : unitPower = 1074 := rfl
    rw [oneUnits_eq]
    generalize unitPower = power at width ⊢
    by_cases zero : value.natAbs = 0
    · rw [zero, Nat.zero_mul]
      decide
    · refine (Nat.log2_lt (Nat.mul_ne_zero zero (Nat.two_pow_pos _).ne')).mpr ?_
      calc value.natAbs * 2 ^ power < 2 ^ 52 * 2 ^ power :=
            Nat.mul_lt_mul_of_pos_right small (Nat.two_pow_pos _)
        _ = 2 ^ (52 + power) := (Nat.pow_add 2 52 power).symm
        _ ≤ 2 ^ 2052 := Nat.pow_le_pow_right (by decide) (by omega)
  unfold ofInt?
  simp only [finite, if_true, Option.isSome_some]

/-- A number that is rounded to a finite one is below a power of ten. -/
theorem natAbs_of_ofInt? {value : Int} {number : Double} (rounded : ofInt? value = some number)
    {power : Nat} (large : 2099 ≤ power) : value.natAbs < 10 ^ power := by
  have finite : (ofFraction (value < 0) value.natAbs 1).isFinite = true := by
    unfold ofInt? at rounded
    dsimp only at rounded
    split at rounded
    case isTrue finite => exact finite
    case isFalse => cases rounded
  have short : (value.natAbs * oneUnits).log2 < 2099 := short_of_isFinite finite
  have positive : 0 < oneUnits := by
    rw [oneUnits_eq]
    exact Nat.two_pow_pos _
  generalize oneUnits = units at short positive
  calc value.natAbs ≤ value.natAbs * units := Nat.le_mul_of_pos_right _ positive
    _ < 2 ^ ((value.natAbs * units).log2 + 1) := Nat.lt_log2_self
    _ ≤ 10 ^ ((value.natAbs * units).log2 + 1) := Nat.pow_le_pow_left (by decide) _
    _ ≤ 10 ^ power := Nat.pow_le_pow_right (by decide) (by omega)

/-- A difference is the usual value if it is no number at all. -/
theorem sub_proper {first second : Double} (proper : (first.sub second).isNan = true) :
    first.sub second = nan := by
  unfold sub at proper ⊢
  dsimp only at proper ⊢
  split_ifs at proper ⊢ with numbers
  · rfl
  · rfl
  · simp_all
  · exact nomatch (isNan_ofParts _ _).symm.trans proper
  · exact nomatch (isNan_ofParts _ _).symm.trans proper

/-! ### Decimals -/

/-- Only the value of a fraction counts for an interval. -/
theorem holds_congr (range : Interval) {first second one other : Nat} (here : 0 < one) (there : 0 < other)
    (same : first * other = second * one) : range.holds first one = range.holds second other := by
  have lower (bound : Nat) : bound * one ≤ first ↔ bound * other ≤ second :=
    calc bound * one ≤ first ↔ bound * one * other ≤ first * other :=
          (Nat.mul_le_mul_right_iff there).symm
      _ ↔ bound * other * one ≤ second * one := by rw [same, Nat.mul_right_comm]
      _ ↔ bound * other ≤ second := Nat.mul_le_mul_right_iff here
  have upper (bound : Nat) : first ≤ bound * one ↔ second ≤ bound * other :=
    calc first ≤ bound * one ↔ first * other ≤ bound * one * other :=
          (Nat.mul_le_mul_right_iff there).symm
      _ ↔ second * one ≤ bound * other * one := by rw [same, Nat.mul_right_comm bound]
      _ ↔ second ≤ bound * other := Nat.mul_le_mul_right_iff here
  unfold Interval.holds
  simp only [← Nat.not_le, lower, upper]

/-- A decimal in quarters of units, over the power of ten of an exponent below zero. -/
def quarters (digits : Nat) (exponent : Int) : Nat :=
  digits * Nat.pow 10 exponent.toNat * (4 * oneUnits)

/-- The power of ten that a decimal with an exponent below zero is divided by. -/
def divisor (exponent : Int) : Nat := Nat.pow 10 (-exponent).toNat

theorem quarters_eq (digits : Nat) (exponent : Int) :
    quarters digits exponent = digits * 10 ^ exponent.toNat * (4 * oneUnits) := by
  rw [quarters, Nat.pow_eq]

theorem divisor_eq (exponent : Int) : divisor exponent = 10 ^ (-exponent).toNat := by
  rw [divisor, Nat.pow_eq]

theorem divisor_pos (exponent : Int) : 0 < divisor exponent := by
  rw [divisor_eq]
  exact Nat.pow_pos (by decide)

/-- Zeros at the end of a decimal belong to its exponent as well. -/
theorem holds_zeros (range : Interval) (digits zeros : Nat) (exponent : Int) :
    range.holds (quarters (digits * 10 ^ zeros) exponent) (divisor exponent) =
      range.holds (quarters digits (exponent + zeros)) (divisor (exponent + zeros)) := by
  refine holds_congr range (divisor_pos _) (divisor_pos _) ?_
  have powers : 10 ^ zeros * 10 ^ exponent.toNat * 10 ^ (-(exponent + zeros)).toNat =
      10 ^ (exponent + zeros).toNat * 10 ^ (-exponent).toNat := by
    rw [← Nat.pow_add, ← Nat.pow_add, ← Nat.pow_add]
    congr 1
    omega
  rw [quarters_eq, quarters_eq, divisor_eq, divisor_eq]
  calc digits * 10 ^ zeros * 10 ^ exponent.toNat * (4 * oneUnits) * 10 ^ (-(exponent + zeros)).toNat
      = digits * (4 * oneUnits) *
          (10 ^ zeros * 10 ^ exponent.toNat * 10 ^ (-(exponent + zeros)).toNat) := by ring
    _ = digits * (4 * oneUnits) * (10 ^ (exponent + zeros).toNat * 10 ^ (-exponent).toNat) := by
      rw [powers]
    _ = digits * 10 ^ (exponent + zeros).toNat * (4 * oneUnits) * 10 ^ (-exponent).toNat := by ring

/-- Few digits with an exponent that is not far from zero are a fraction of units. -/
theorem ofDecimal_units (negative : Bool) {digits : Nat} {exponent : Int} (some : digits ≠ 0)
    (few : digits ≤ 10 ^ 17) (least : -400 ≤ exponent) (most : exponent ≤ 380) :
    ofDecimal negative digits exponent =
      ofUnits negative (digits * 10 ^ exponent.toNat * oneUnits) (divisor exponent) := by
  have short : digits.log2 < 57 := (Nat.log2_lt some).mpr (by omega)
  have filled : (digits == 0) = false := by simpa using some
  unfold ofDecimal
  simp only [filled, Bool.false_or, decide_eq_true_eq]
  rw [if_neg (by omega), if_neg (by omega)]
  split
  case isTrue whole =>
    unfold ofFraction
    rw [divisor_eq, show (-exponent).toNat = 0 by omega, Nat.pow_zero, Nat.pow_eq]
  case isFalse broken =>
    unfold ofFraction
    rw [divisor_eq, show exponent.toNat = 0 by omega, Nat.pow_zero, Nat.mul_one, Nat.pow_eq]

/-- A decimal in the interval of a number is rounded to the number. -/
theorem ofDecimal_near {number : Double} {whole steps digits : Nat} {exponent : Int}
    (parts : Parts number whole steps) (negative : Bool) (some : digits ≠ 0)
    (few : digits ≤ 10 ^ 17) (least : -400 ≤ exponent) (most : exponent ≤ 380)
    (holds : number.interval.holds (quarters digits exponent) (divisor exponent) = true) :
    ofDecimal negative digits exponent = ofParts negative number.magnitudeBits := by
  rw [ofDecimal_units negative some few least most]
  refine ofUnits_near parts negative (divisor_pos exponent) ?_
  rwa [Nat.mul_left_comm, ← quarters_eq]

/-- The decimals of nothing stand for zero. -/
theorem ofDecimal_zero (negative : Bool) (exponent : Int) :
    ofDecimal negative 0 exponent = ofParts negative 0 := by
  unfold ofDecimal
  simp

end Double

end ChipEight
