/-
This file shows that every positive number has a decimal of at most seventeen digits, and that this
decimal stands for the number.
-/

import ChipEight.Proofs.Double.Rounding

namespace ChipEight.Double

/-! ### The first digit -/

/-- A whole number lies between the powers of ten of its length. -/
theorem decimalLength_bounds {whole : Nat} (positive : 0 < whole) :
    ∃ power, decimalLength whole = power + 1 ∧ 10 ^ power ≤ whole ∧ whole < 10 ^ (power + 1) := by
  induction whole using Nat.strongRecOn with
  | ind whole ih =>
      unfold decimalLength at ih ⊢
      rw [Nat.toDigits_eq_if (by decide)]
      split
      case isTrue single => exact ⟨0, rfl, positive, single⟩
      case isFalse several =>
        obtain ⟨power, length, least, most⟩ := ih (whole / 10) (by omega) (by omega)
        refine ⟨power + 1, ?_, ?_, ?_⟩
        · rw [List.length_append, length]
          rfl
        · rw [Nat.pow_succ]
          omega
        · rw [Nat.pow_succ]
          omega

/-- A fraction that is not less than one has as many powers of ten as its whole part. -/
theorem leadingPower_whole {numerator denominator : Nat} (positive : 0 < denominator)
    (large : denominator ≤ numerator) :
    ∃ count : Nat, leadingPower numerator denominator = count ∧ denominator * 10 ^ count ≤ numerator ∧
      numerator < 10 * (denominator * 10 ^ count) := by
  obtain ⟨count, length, least, most⟩ := decimalLength_bounds (Nat.div_pos large positive)
  rw [Nat.le_div_iff_mul_le positive, Nat.mul_comm] at least
  rw [Nat.div_lt_iff_lt_mul positive] at most
  refine ⟨count, ?_, least, most.trans_eq (by ring)⟩
  unfold leadingPower
  rw [if_pos large, length]
  omega

/-- The first digit of a fraction that is less than one stands as far behind the point as its inverse has
digits before the point. -/
theorem leadingPower_inverse {numerator denominator : Nat} (some : 0 < numerator)
    (small : numerator < denominator) :
    ∃ count : Nat, leadingPower numerator denominator = -((count + 1 : Nat) : Int) ∧
      denominator ≤ numerator * 10 ^ (count + 1) ∧ numerator * 10 ^ (count + 1) < 10 * denominator := by
  -- The inverse, rounded up, is one more than a whole number below the exact inverse.
  have upper := Nat.div_mul_le_self (denominator + numerator - 1) numerator
  have lower := Nat.lt_div_mul_add (a := denominator + numerator - 1) some
  have several : 2 ≤ (denominator + numerator - 1) / numerator := by
    rw [Nat.le_div_iff_mul_le some]
    omega
  obtain ⟨count, length, least, most⟩ :=
    decimalLength_bounds (show 0 < (denominator + numerator - 1) / numerator - 1 by omega)
  have value : leadingPower numerator denominator = -((count + 1 : Nat) : Int) := by
    unfold leadingPower
    rw [if_neg (Nat.not_le.mpr small)]
    dsimp only
    rw [length]
    rfl
  generalize (denominator + numerator - 1) / numerator = whole at *
  obtain ⟨rest, rfl⟩ : ∃ rest, whole = rest + 1 := Nat.exists_eq_succ_of_ne_zero (by omega)
  rw [Nat.add_sub_cancel] at least most
  rw [Nat.add_mul, Nat.one_mul] at upper lower
  have beyond := Nat.mul_le_mul_left numerator (Nat.succ_le_of_lt most)
  have under := Nat.mul_le_mul_left numerator least
  rw [Nat.mul_succ, Nat.mul_comm numerator rest] at beyond
  rw [Nat.mul_comm numerator rest] at under
  refine ⟨count, value, by omega, ?_⟩
  rw [Nat.pow_succ, ← Nat.mul_assoc]
  omega

/-- A fraction has its first digit at its leading power of ten. -/
theorem leadingPower_bounds {numerator denominator : Nat} (some : 0 < numerator)
    (positive : 0 < denominator) :
    let power := leadingPower numerator denominator
    denominator * 10 ^ power.toNat ≤ numerator * 10 ^ (-power).toNat ∧
      numerator * 10 ^ (-power).toNat < 10 * (denominator * 10 ^ power.toNat) := by
  intro power
  rcases Nat.lt_or_ge numerator denominator with small | large
  · obtain ⟨count, value, least, most⟩ := leadingPower_inverse some small
    rw [show power = _ from value, Int.neg_neg, Int.toNat_natCast, Int.toNat_neg_natCast, Nat.pow_zero,
      Nat.mul_one]
    exact ⟨least, most⟩
  · obtain ⟨count, value, least, most⟩ := leadingPower_whole positive large
    rw [show power = _ from value, Int.toNat_natCast, Int.toNat_neg_natCast, Nat.pow_zero, Nat.mul_one]
    exact ⟨least, most⟩

/-! ### Decimals of a number -/

/-- A decimal of a number stands for it, and is one of the two of its exponent that are next to it. -/
theorem decimalOf?_some {range : Interval} {power exponent : Int} {count digits : Nat}
    (found : decimalOf? range power count = some (digits, exponent)) :
    exponent = power - count + 1 ∧ digits ≠ 0 ∧
      range.holds (quarters digits exponent) (divisor exponent) = true ∧
      digits ≤ range.middle * divisor exponent / (4 * oneUnits * 10 ^ exponent.toNat) + 1 := by
  unfold decimalOf? at found
  dsimp only at found
  obtain ⟨candidate, first, same⟩ := Option.map_eq_some_iff.mp found
  cases same
  have member := List.mem_of_find?_eq_some first
  have fits := List.find?_some first
  simp only [bne_iff_ne, Bool.and_eq_true, ne_eq] at fits
  refine ⟨rfl, fits.1, fits.2, ?_⟩
  unfold divisor
  split at member
  all_goals
    simp only [List.mem_cons, List.not_mem_nil, or_false] at member
    rcases member with rfl | rfl
  · exact Nat.le_succ _
  · exact Nat.le_refl _
  · exact Nat.le_refl _
  · exact Nat.le_succ _

/-- If the nearest decimal of an exponent stands for a number, then one is found. -/
theorem decimalOf?_isSome {range : Interval} {power : Int} {count : Nat} {exponent : Int}
    (last : exponent = power - count + 1) (nearest : Nat)
    (rounded : roundedQuotient (range.middle * divisor exponent) (4 * oneUnits * 10 ^ exponent.toNat) =
      nearest)
    (some : nearest ≠ 0)
    (fits : range.holds (quarters nearest exponent) (divisor exponent) = true) :
    (decimalOf? range power count).isSome = true := by
  unfold decimalOf?
  dsimp only
  rw [← last, Option.isSome_map]
  change (List.find? (fun digits => digits != 0 &&
    range.holds (quarters digits exponent) (divisor exponent)) _).isSome = true
  rw [List.find?_isSome]
  refine ⟨nearest, ?_, by simp [some, fits]⟩
  have next := roundedQuotient_cases (range.middle * divisor exponent)
    (4 * oneUnits * 10 ^ exponent.toNat)
  rw [rounded] at next
  rw [divisor_eq] at rounded next
  simp only [Nat.pow_eq, beq_iff_eq]
  rw [rounded]
  split <;> simp [next, or_comm]

/-! ### Seventeen digits -/

/-- A fraction has so many digits before the point once it is moved behind them. -/
theorem moved_bounds {numerator denominator : Nat} {power : Int}
    (least : denominator * 10 ^ power.toNat ≤ numerator * 10 ^ (-power).toNat)
    (most : numerator * 10 ^ (-power).toNat < 10 * (denominator * 10 ^ power.toNat)) (more : Nat)
    {exponent : Int} (last : exponent = power - more) :
    10 ^ more * (denominator * 10 ^ exponent.toNat) ≤ numerator * divisor exponent ∧
      numerator * divisor exponent < 10 ^ (more + 1) * (denominator * 10 ^ exponent.toNat) := by
  have powers : 10 ^ power.toNat * divisor exponent =
      10 ^ (-power).toNat * (10 ^ exponent.toNat * 10 ^ more) := by
    rw [divisor_eq, ← Nat.pow_add, ← Nat.pow_add, ← Nat.pow_add]
    congr 1
    omega
  have scale : 0 < 10 ^ (-power).toNat := Nat.pow_pos (by decide)
  have numerators : numerator * 10 ^ (-power).toNat * divisor exponent =
      10 ^ (-power).toNat * (numerator * divisor exponent) := by ring
  have denominators : denominator * 10 ^ power.toNat * divisor exponent =
      10 ^ (-power).toNat * (10 ^ more * (denominator * 10 ^ exponent.toNat)) := by
    rw [Nat.mul_assoc, powers]
    ring
  constructor
  · refine Nat.le_of_mul_le_mul_left ?_ scale
    rw [← numerators, ← denominators]
    exact Nat.mul_le_mul_right _ least
  · refine Nat.lt_of_mul_lt_mul_left (a := 10 ^ (-power).toNat) ?_
    calc 10 ^ (-power).toNat * (numerator * divisor exponent)
        = numerator * 10 ^ (-power).toNat * divisor exponent := numerators.symm
      _ < 10 * (denominator * 10 ^ power.toNat) * divisor exponent :=
        Nat.mul_lt_mul_of_pos_right most (divisor_pos exponent)
      _ = 10 * (denominator * 10 ^ power.toNat * divisor exponent) := Nat.mul_assoc _ _ _
      _ = 10 ^ (-power).toNat * (10 ^ (more + 1) * (denominator * 10 ^ exponent.toNat)) := by
        rw [denominators]
        ring

theorem quarters_pos : 0 < 4 * oneUnits := by
  have := Nat.two_pow_pos unitPower
  rw [oneUnits_eq]
  omega

/-- Three doublings are less than a power of ten. -/
theorem twos_le_tens {twos tens : Nat} (fewer : twos ≤ 3 * tens) : 2 ^ twos ≤ 10 ^ tens :=
  calc 2 ^ twos ≤ 2 ^ (3 * tens) := Nat.pow_le_pow_right (by decide) fewer
    _ = 8 ^ tens := Nat.pow_mul 2 3 tens
    _ ≤ 10 ^ tens := Nat.pow_le_pow_left (by decide) tens

section

variable {number : Double} {whole steps : Nat} (parts : Parts number whole steps)

include parts

theorem middle_parts : number.interval.middle = 4 * (whole * 2 ^ steps) := by
  rw [interval_parts parts, Nat.mul_assoc]

theorem middle_pos : 0 < number.interval.middle := by
  rw [middle_parts parts]
  have := Nat.mul_pos parts.positive (Nat.two_pow_pos steps)
  omega

/-- The first digits of all numbers have places that are not far from that of ones. -/
theorem power_bounds {power : Int} (leads : power = leadingPower number.interval.middle (4 * oneUnits)) :
    -359 < power ∧ power < 342 := by
  obtain ⟨least, most⟩ := leadingPower_bounds (middle_pos parts) quarters_pos
  rw [← leads, middle_parts parts] at least most
  have size := oneUnits_eq
  have width : unitPower = 1074 := rfl
  -- The count of units in the number one is too large to be worked out.
  generalize oneUnits = units at size least most
  generalize unitPower = doublings at size width
  clear leads
  constructor
  · by_contra low
    obtain ⟨count, rfl⟩ : ∃ count : Nat, power = -((count + 1 : Nat) : Int) :=
      ⟨(-power).toNat - 1, by omega⟩
    rw [Int.neg_neg, Int.toNat_natCast, Int.toNat_neg_natCast, Nat.pow_zero, Nat.mul_one, Nat.mul_assoc]
      at most
    have tens : units ≤ 10 ^ count := by
      rw [size]
      exact twos_le_tens (by omega)
    have one : 1 ≤ whole * 2 ^ steps := Nat.mul_pos parts.positive (Nat.two_pow_pos steps)
    have scaled := Nat.mul_le_mul_right (10 ^ (count + 1)) one
    rw [Nat.pow_succ] at scaled most
    omega
  · by_contra high
    have wide : whole * 2 ^ steps < units * 10 ^ power.toNat :=
      calc whole * 2 ^ steps < 2 ^ 53 * 2 ^ steps :=
            Nat.mul_lt_mul_of_pos_right parts.most (Nat.two_pow_pos steps)
        _ = 2 ^ (53 + steps) := (Nat.pow_add 2 53 steps).symm
        _ ≤ 2 ^ (doublings + 3 * power.toNat) :=
          Nat.pow_le_pow_right (by decide) (by have := parts.least; omega)
        _ = units * 2 ^ (3 * power.toNat) := by rw [Nat.pow_add, size]
        _ ≤ units * 10 ^ power.toNat := Nat.mul_le_mul_left _ (twos_le_tens (Nat.le_refl _))
    rw [show (-power).toNat = 0 by omega, Nat.pow_zero, Nat.mul_one, Nat.mul_assoc] at least
    exact absurd (Nat.le_of_mul_le_mul_left least (by decide)) (Nat.not_le.mpr wide)

/-- A fraction that is at most a half of a unit away stands for the number, if the unit is less than twice the
distances from the number to the ends of its interval. -/
theorem holds_near {quarters divisor unit : Nat}
    (above : 2 * quarters ≤ 2 * (4 * (whole * (2 ^ steps * divisor))) + unit)
    (below : 2 * (4 * (whole * (2 ^ steps * divisor))) ≤ 2 * quarters + unit)
    (far : unit < 2 * (reach whole steps * (2 ^ steps * divisor)) ∧ unit < 4 * (2 ^ steps * divisor)) :
    number.interval.holds quarters divisor = true := by
  have low : (4 * whole - reach whole steps) * 2 ^ steps * divisor +
      reach whole steps * (2 ^ steps * divisor) = 4 * (whole * (2 ^ steps * divisor)) := by
    have some : reach whole steps ≤ 4 * whole := by
      have := parts.positive
      unfold reach
      split <;> omega
    rw [Nat.mul_assoc, ← Nat.add_mul, Nat.sub_add_cancel some, Nat.mul_assoc]
  have high : (4 * whole + 2) * 2 ^ steps * divisor =
      4 * (whole * (2 ^ steps * divisor)) + 2 * (2 ^ steps * divisor) := by
    rw [Nat.mul_assoc, Nat.add_mul, Nat.mul_assoc]
  rw [interval_parts parts]
  unfold Interval.holds
  dsimp only
  split <;>
    · simp only [Bool.and_eq_true, decide_eq_true_eq]
      omega

/-- Of seventeen digits, the nearest decimal stands for the number. -/
theorem decimalOf?_seventeen {power : Int}
    (leads : power = leadingPower number.interval.middle (4 * oneUnits)) :
    (decimalOf? number.interval power 17).isSome = true := by
  obtain ⟨least, most⟩ := leadingPower_bounds (middle_pos parts) quarters_pos
  rw [← leads] at least most
  have last : power - (17 : Nat) + 1 = power - (16 : Nat) := by omega
  have moved := (moved_bounds least most 16 last).1
  generalize places : power - (17 : Nat) + 1 = exponent at moved
  have unit : 0 < 4 * oneUnits * 10 ^ exponent.toNat := Nat.mul_pos quarters_pos (Nat.pow_pos (by decide))
  obtain ⟨above, below⟩ := roundedQuotient_near (number.interval.middle * divisor exponent) unit
  generalize rounded : roundedQuotient (number.interval.middle * divisor exponent)
    (4 * oneUnits * 10 ^ exponent.toNat) = nearest at above below
  have shape : quarters nearest exponent = nearest * (4 * oneUnits * 10 ^ exponent.toNat) := by
    rw [quarters_eq]
    ring
  have middle : number.interval.middle * divisor exponent =
      4 * (whole * (2 ^ steps * divisor exponent)) := by
    rw [middle_parts parts]
    ring
  rw [middle] at above below moved
  have count := fractionCount_eq
  have full := Nat.mul_le_mul_right (2 ^ steps * divisor exponent)
    (show whole ≤ 2 * fractionCount - 1 by have := parts.most; omega)
  rw [count] at full
  refine decimalOf?_isSome places.symm nearest rounded ?_ (shape ▸ holds_near parts above below ?_)
  · rintro rfl
    omega
  · unfold reach
    split
    case isTrue start =>
      rw [start.1, count] at moved
      omega
    case isFalse => omega

/-- The shortest decimal of a positive number stands for it. -/
theorem shortest_stands :
    ∃ digits exponent, number.shortest = (digits, exponent) ∧ digits ≠ 0 ∧ digits ≤ 10 ^ 17 ∧
      -376 < exponent ∧ exponent < 342 ∧
      number.interval.holds (quarters digits exponent) (divisor exponent) = true := by
  unfold shortest
  dsimp only
  generalize leads : leadingPower number.interval.middle (4 * oneUnits) = power
  have all := decimalOf?_seventeen parts leads.symm
  have found : ((List.range 17).findSome? fun index =>
      decimalOf? number.interval power (index + 1)).isSome = true := by
    rw [List.findSome?_isSome_iff]
    exact ⟨16, by simp, all⟩
  obtain ⟨⟨digits, exponent⟩, first⟩ := Option.isSome_iff_exists.mp found
  obtain ⟨index, member, one⟩ := List.exists_of_findSome?_eq_some first
  obtain ⟨last, some, fits, next⟩ := decimalOf?_some one
  have inside := List.mem_range.mp member
  have places : exponent = power - (index : Nat) := by omega
  obtain ⟨least, most⟩ := leadingPower_bounds (middle_pos parts) quarters_pos
  obtain ⟨low, high⟩ := power_bounds parts leads.symm
  rw [leads] at least most
  have moved := (moved_bounds least most index places).2
  have unit : 0 < 4 * oneUnits * 10 ^ exponent.toNat := Nat.mul_pos quarters_pos (Nat.pow_pos (by decide))
  have short : 10 ^ (index + 1) ≤ 10 ^ 17 := Nat.pow_le_pow_right (by decide) inside
  rw [← Nat.div_lt_iff_lt_mul unit] at moved
  refine ⟨digits, exponent, ?_, some, by omega, by omega, by omega, fits⟩
  rw [first]
  rfl

end

end ChipEight.Double
