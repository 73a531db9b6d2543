/-
This file shows that a number with a binary point is read as it was written: its digits and their exponent
are read off every layout.
-/

import ChipEight.Json.Writer
import ChipEight.Proofs.Double.Shortest
import ChipEight.Proofs.Json.Characters
import ChipEight.Proofs.Json.Numerals

namespace ChipEight.Json

/-! ### Digits without zeros at the end -/

theorem decimalValue_zeros (count : Nat) : decimalValue (List.replicate count '0') = 0 := by
  induction count with
  | zero => rfl
  | succ count ih =>
      rw [List.replicate_succ', decimalValue_append, ih]
      rfl

theorem digits_zeros (count : Nat) : Digits (List.replicate count '0') := by
  intro character member
  rw [List.eq_of_mem_replicate member]
  rfl

theorem Digits.append {first second : List Char} (one : Digits first) (other : Digits second) :
    Digits (first ++ second) := List.forall_mem_append.mpr ⟨one, other⟩

theorem decimalValue_lt {digits : List Char} (all : Digits digits) :
    decimalValue digits < 10 ^ digits.length := by
  induction digits using List.reverseRecOn with
  | nil => decide
  | append_singleton digits last ih =>
      obtain ⟨before, single⟩ := List.forall_mem_append.mp all
      have digit : isDigit last = true := single last List.mem_cons_self
      have small : decimalValue [last] < 10 := by
        have bounds : 48 ≤ last.toNat ∧ last.toNat ≤ 57 := by
          simpa [isDigit, Char.le_def, UInt32.le_iff_toNat_le] using digit
        simp only [decimalValue, List.foldl_cons, List.foldl_nil]
        omega
      have less := ih before
      rw [decimalValue_append, List.length_append, List.length_singleton, Nat.pow_one, Nat.pow_succ]
      omega

/-- The digits of a number without the zeros at its end, of which the point is so many places away. -/
theorem pointed_digits {digits : Nat} (some : digits ≠ 0) (exponent : Int) :
    ∃ (kept : List Char) (zeros : Nat),
      Double.pointed digits exponent = (kept, exponent + zeros + kept.length) ∧
      Digits kept ∧ decimalValue kept * 10 ^ zeros = digits ∧
      ∃ first rest, kept = first :: rest ∧ first ≠ '0' := by
  have value := decimalValue_toDigits digits
  have all := toDigits_digits digits
  obtain ⟨-, zero | ⟨first, others, start, other⟩⟩ := toDigits_whole digits
  · rw [zero] at value
    exact absurd value.symm some
  unfold Double.pointed
  dsimp only
  generalize Nat.toDigits 10 digits = written at *
  obtain ⟨zeros, ending⟩ : ∃ zeros,
      written.reverse.takeWhile (fun character => character == '0') = List.replicate zeros '0' :=
    ⟨_, List.eq_replicate_of_mem fun character member => by
      simpa using List.all_eq_true.mp List.all_takeWhile character member⟩
  have parts := congrArg List.reverse
    (List.takeWhile_append_dropWhile (p := fun character => character == '0') (l := written.reverse))
  rw [List.reverse_append, List.reverse_reverse, ending, List.reverse_replicate] at parts
  generalize (written.reverse.dropWhile fun character => character == '0').reverse = kept at *
  subst parts
  refine ⟨kept, zeros, ?_, (List.forall_mem_append.mp all).1, ?_, ?_⟩
  · simp
    omega
  · rw [decimalValue_append, decimalValue_zeros, List.length_replicate, Nat.add_zero] at value
    exact value
  · cases kept with
    | nil =>
        have zero : first = '0' := List.eq_of_mem_replicate (start ▸ List.mem_cons_self)
        exact absurd zero other
    | cons head rest =>
        cases start
        exact ⟨_, rest, rfl, other⟩

/-! ### Layouts -/

namespace Figures

/-- The parts of a number with a point or an exponent, and their value. -/
theorem value_broken {figures : Figures}
    (broken : (figures.places.isEmpty && figures.power.isNone) = false) :
    figures.value = .ok (.float (Double.ofDecimal figures.negative
      (decimalValue (figures.whole ++ figures.places)) (figures.exponent - figures.places.length))) := by
  unfold value
  rw [broken]
  rfl

/-- The characters of digits, as of other numbers, are plain. -/
theorem digits_plain {digits : List Char} (all : Digits digits) : Plain digits := by
  intro character member
  have digit := all character member
  have bounds : 48 ≤ character.toNat ∧ character.toNat ≤ 57 := by
    simpa [isDigit, Char.le_def, UInt32.le_iff_toNat_le] using digit
  refine ⟨by omega, ?_⟩
  rintro rfl
  exact nomatch digit

theorem text_plain {figures : Figures} (sound : figures.Sound) : Plain figures.text := by
  have sign : Plain figures.signText := by
    unfold signText
    split <;> decide
  have places : Plain figures.placesText := by
    unfold placesText
    split
    · decide
    · exact Plain.append (show Plain ['.'] by decide) (digits_plain sound.places)
  have power : Plain figures.powerText := by
    unfold powerText
    split
    · decide
    case h_2 below digits given =>
      have all := digits_plain (sound.power below digits given).1
      cases below
      · exact Plain.append (show Plain ['e', '+'] by decide) all
      · exact Plain.append (show Plain ['e', '-'] by decide) all
  exact sign.append ((digits_plain sound.whole.1).append (places.append power))

theorem text_begins {figures : Figures} (sound : figures.Sound) :
    ∃ first tail, figures.text = first :: tail ∧ (first = '-' ∨ isDigit first = true) := by
  obtain ⟨first, others, shape, digit⟩ := whole_start sound
  unfold text signText
  rw [shape]
  split
  · exact ⟨'-', _, rfl, .inl rfl⟩
  · exact ⟨first, _, rfl, .inr digit⟩

/-- Parts that stand for digits with a point so many places from their first. They may have zeros at the
end, but then not many digits. -/
structure Lays (figures : Figures) (negative : Bool) (digits : List Char) (point : Int) : Prop where
  sound : figures.Sound
  broken : (figures.places.isEmpty && figures.power.isNone) = false
  signed : figures.negative = negative
  text : figures.text = (if negative then ['-'] else []) ++ Double.layout digits point
  value : ∃ zeros : Nat, decimalValue (figures.whole ++ figures.places) = decimalValue digits * 10 ^ zeros ∧
    figures.exponent - figures.places.length = point - digits.length - zeros ∧
    (zeros = 0 ∨ digits.length + zeros ≤ 17)

variable {digits : List Char} {point : Int}

theorem lays_below (negative : Bool) (all : Digits digits) (some : digits ≠ []) (near : -4 < point)
    (below : point ≤ 0) :
    Lays ⟨negative, ['0'], List.replicate (-point).toNat '0' ++ digits, none⟩ negative digits point where
  sound := sound_bare _ ⟨digits_zeros 1, .inl rfl⟩ ((digits_zeros _).append all)
  broken := by simp [some]
  signed := rfl
  text := by
    have filled : (List.replicate (-point).toNat '0' ++ digits).isEmpty = false := by simp [some]
    simp [Figures.text, signText, placesText, powerText, Double.layout, near, below, filled]
  value := by
    refine ⟨0, ?_, ?_, .inl rfl⟩
    · simp only [decimalValue_append, decimalValue_zeros]
      rw [show decimalValue ['0'] = 0 from rfl]
      simp
    · simp only [exponent, List.length_append, List.length_replicate]
      omega

theorem whole_of_digits {first : Char} {rest : List Char} (all : Digits (first :: rest))
    (other : first ≠ '0') : Whole (first :: rest) := ⟨all, .inr ⟨first, rest, rfl, other⟩⟩

/-- A point that is not far behind the first digit stands after the digits, with zeros between them, or
among them. -/
theorem layout_inside {place : Nat} (digits : List Char) (above : 0 < place) (near : place ≤ 16) :
    Double.layout digits place =
      if digits.length ≤ place then digits ++ List.replicate (place - digits.length) '0' ++ ['.', '0']
      else digits.take place ++ '.' :: digits.drop place := by
  unfold Double.layout
  simp only [Bool.and_eq_true, decide_eq_true_eq]
  rw [if_neg (by omega), if_pos (by omega), Int.toNat_natCast]

theorem lays_behind (negative : Bool) {first : Char} {rest : List Char} {place : Nat}
    (all : Digits (first :: rest)) (other : first ≠ '0') (above : 0 < place) (near : place ≤ 16)
    (short : (first :: rest).length ≤ place) :
    Lays ⟨negative, (first :: rest) ++ List.replicate (place - (first :: rest).length) '0', ['0'], none⟩
      negative (first :: rest) place where
  sound := sound_bare _ (whole_of_digits (all.append (digits_zeros _)) other) (digits_zeros 1)
  broken := rfl
  signed := rfl
  text := by
    rw [layout_inside _ above near, if_pos short]
    simp [Figures.text, signText, placesText, powerText]
  value := by
    refine ⟨place - (first :: rest).length + 1, ?_, ?_, .inr (by omega)⟩
    · simp only [List.append_assoc]
      rw [← List.replicate_succ', decimalValue_append, decimalValue_zeros, List.length_replicate,
        Nat.add_zero]
    · simp only [exponent, List.length_singleton]
      omega

theorem lays_among (negative : Bool) {first : Char} {rest : List Char} {less : Nat}
    (all : Digits (first :: rest)) (other : first ≠ '0') (near : less + 1 ≤ 16)
    (long : less + 1 < (first :: rest).length) :
    Lays ⟨negative, first :: rest.take less, rest.drop less, none⟩ negative (first :: rest)
      (less + 1 : Nat) := by
  have length : (rest.drop less).length = (first :: rest).length - (less + 1) := by simp
  have filled : (rest.drop less).isEmpty = false := by
    rw [List.isEmpty_eq_false_iff, ← List.length_pos_iff, length]
    omega
  have parts : first :: rest = (first :: rest.take less) ++ rest.drop less := by simp
  obtain ⟨before, behind⟩ := List.forall_mem_append.mp (parts ▸ all)
  refine ⟨sound_bare _ (whole_of_digits before other) behind, by simp [filled], rfl, ?_, 0, ?_, ?_, .inl rfl⟩
  · rw [layout_inside _ (Nat.succ_pos less) near, if_neg (Nat.not_le.mpr long)]
    simp [Figures.text, signText, placesText, powerText, filled]
  · simp
  · simp only [exponent, length]
    omega

theorem lays_inside (negative : Bool) {first : Char} {rest : List Char} (all : Digits (first :: rest))
    (other : first ≠ '0') (above : 0 < point) (near : point ≤ 16) :
    ∃ figures, Lays figures negative (first :: rest) point := by
  obtain ⟨less, rfl⟩ : ∃ less : Nat, point = (less + 1 : Nat) := ⟨(point - 1).toNat, by omega⟩
  by_cases short : (first :: rest).length ≤ less + 1
  · exact ⟨_, lays_behind negative all other (Nat.succ_pos less) (by omega) short⟩
  · exact ⟨_, lays_among negative all other (by omega) (Nat.lt_of_not_le short)⟩

theorem lays_power (negative : Bool) {first : Char} {rest : List Char} (all : Digits (first :: rest))
    (other : first ≠ '0') (far : ¬ (-4 < point ∧ point ≤ 0) ∧ ¬ (0 < point ∧ point ≤ 16)) :
    ∃ figures, Lays figures negative (first :: rest) point := by
  obtain ⟨head, behind⟩ := List.forall_mem_cons.mp all
  have places : Digits (List.replicate (2 - (Nat.toDigits 10 (point - 1).natAbs).length) '0' ++
      Nat.toDigits 10 (point - 1).natAbs) := (digits_zeros _).append (toDigits_digits _)
  have value : decimalValue (List.replicate (2 - (Nat.toDigits 10 (point - 1).natAbs).length) '0' ++
      Nat.toDigits 10 (point - 1).natAbs) = (point - 1).natAbs := by
    rw [decimalValue_append, decimalValue_zeros, decimalValue_toDigits]
    omega
  refine ⟨⟨negative, [first], rest, some (decide (point - 1 < 0),
      List.replicate (2 - (Nat.toDigits 10 (point - 1).natAbs).length) '0' ++
        Nat.toDigits 10 (point - 1).natAbs)⟩,
    ⟨whole_of_digits (List.forall_mem_singleton.mpr head) other, behind, ?_⟩, by simp, rfl, ?_, 0, ?_,
    ?_, .inl rfl⟩
  · rintro below digits ⟨⟩
    refine ⟨places, ?_⟩
    have positive := Nat.length_toDigits_pos (b := 10) (n := (point - 1).natAbs)
    intro none
    have length := congrArg List.length none
    simp only [List.length_append, List.length_nil] at length
    omega
  · have layout : Double.layout (first :: rest) point =
        [first] ++ (if rest.isEmpty then [] else '.' :: rest) ++
          'e' :: Double.exponentText (point - 1) := by
      unfold Double.layout
      simp only [Bool.and_eq_true, decide_eq_true_eq]
      rw [if_neg far.1, if_neg far.2]
      cases rest <;> rfl
    rw [layout]
    simp [Figures.text, signText, placesText, powerText, Double.exponentText]
  · simp
  · simp only [exponent, value, decide_eq_true_eq, List.length_cons]
    split <;> omega

/-- Digits that do not start with zero are laid out as the parts of a number. -/
theorem exists_lays (negative : Bool) {first : Char} {rest : List Char} (all : Digits (first :: rest))
    (other : first ≠ '0') (point : Int) : ∃ figures, Lays figures negative (first :: rest) point := by
  by_cases below : -4 < point ∧ point ≤ 0
  · exact ⟨_, lays_below negative all (by simp) below.1 below.2⟩
  by_cases inside : 0 < point ∧ point ≤ 16
  · exact lays_inside negative all other inside.1 inside.2
  · exact lays_power negative all other ⟨below, inside⟩

/-! ### Numbers with a binary point -/

/-- The layout of the shortest decimal of a positive number is read as that number. -/
theorem exists_shortest {number : Double} {whole steps : Nat} (parts : Double.Parts number whole steps)
    (negative : Bool) :
    ∃ figures : Figures, figures.Sound ∧
      figures.text = (if negative then ['-'] else []) ++
        Double.layout (Double.pointed number.shortest.1 number.shortest.2).1
          (Double.pointed number.shortest.1 number.shortest.2).2 ∧
      figures.value = .ok (.float (Double.ofParts negative number.magnitudeBits)) := by
  obtain ⟨digits, exponent, shortest, some, few, least, most, holds⟩ := Double.shortest_stands parts
  obtain ⟨kept, zeros, pointed, all, value, first, rest, start, other⟩ := pointed_digits some exponent
  obtain ⟨figures, lays⟩ := exists_lays negative (start ▸ all) other (exponent + zeros + kept.length)
  rw [← start] at lays
  rw [shortest, pointed]
  refine ⟨figures, lays.sound, lays.text, ?_⟩
  obtain ⟨more, shown, places, room⟩ := lays.value
  have last : figures.exponent - figures.places.length + more = exponent + zeros := by omega
  have filled : decimalValue kept ≠ 0 := by
    rintro zero
    rw [zero, Nat.zero_mul] at value
    exact some value.symm
  have fewer : zeros ≤ 17 := by
    have single := Nat.mul_le_mul_right (10 ^ zeros) (Nat.one_le_iff_ne_zero.mpr filled)
    rw [Nat.one_mul, value] at single
    exact (Nat.pow_le_pow_iff_right (by decide)).mp (single.trans few)
  rw [value_broken lays.broken, lays.signed, shown]
  refine congrArg (fun read => Except.ok (Value.float read)) ?_
  refine Double.ofDecimal_near parts negative (Nat.mul_ne_zero filled (Nat.pow_pos (by decide)).ne') ?_
    (by omega) (by omega) ?_
  · rcases room with rfl | short
    · rw [Nat.pow_zero, Nat.mul_one]
      exact (Nat.le_mul_of_pos_right _ (Nat.pow_pos (by decide))).trans (value.trans_le few)
    · calc decimalValue kept * 10 ^ more ≤ 10 ^ kept.length * 10 ^ more :=
            Nat.mul_le_mul_right _ (decimalValue_lt all).le
        _ = 10 ^ (kept.length + more) := (Nat.pow_add 10 _ _).symm
        _ ≤ 10 ^ 17 := Nat.pow_le_pow_right (by decide) short
  · rw [Double.holds_zeros, last, ← Double.holds_zeros, value]
    exact holds

/-- A finite number is written as parts that are read as the number. -/
theorem exists_written {number : Double} (finite : number.isFinite = true) :
    ∃ figures : Figures, figures.Sound ∧ figures.text = (writtenNumber number).toList ∧
      figures.value = .ok (.float number) := by
  have proper : number.isNan = false := by
    have bound : number.magnitudeBits < Double.infinityBits := of_decide_eq_true finite
    exact decide_eq_false (Nat.lt_asymm bound)
  have whole := Double.ofParts_parts proper
  unfold writtenNumber Double.text
  simp only [proper, finite, Bool.false_eq_true, Bool.not_true, if_true, if_false, String.toList_ofList]
  cases zero : number.isZero with
  | true =>
      have nothing : number.magnitudeBits = 0 := by simpa [Double.isZero] using zero
      refine ⟨⟨number.isNegative, ['0'], ['0'], none⟩,
        sound_bare _ ⟨digits_zeros 1, .inl rfl⟩ (digits_zeros 1), ?_, ?_⟩
      · simp [Figures.text, signText, placesText, powerText]
      · rw [nothing] at whole
        rw [value_broken rfl]
        refine congrArg (fun read => Except.ok (Value.float read)) ?_
        exact (Double.ofDecimal_zero _ _).trans whole
  | false =>
      obtain ⟨bits, steps, parts⟩ := Double.exists_parts finite zero
      obtain ⟨figures, sound, text, value⟩ := exists_shortest parts number.isNegative
      refine ⟨figures, sound, ?_, value.trans (by rw [whole])⟩
      rw [text]
      simp only [Bool.false_eq_true, if_false]

end Figures

/-- A number is written in plain characters, from a digit, a sign or the letter of a word on, and is read
as it was written. -/
structure Rereads (number : Double) : Prop where
  plain : Plain (writtenNumber number).toList
  begins : ∃ first tail, (writtenNumber number).toList = first :: tail ∧
    (first = '-' ∨ first = 'N' ∨ first = 'I' ∨ isDigit first = true)
  reads (position : Nat) {rest : List Char} (stops : Stops rest) :
    ∃ after, scalar ⟨position, (writtenNumber number).toList ++ rest⟩ =
      .ok (.float number, ⟨after, rest⟩)

theorem Rereads.of_text {number : Double} {text : String} (written : writtenNumber number = text)
    (plain : Plain text.toList)
    (begins : ∃ first tail, text.toList = first :: tail ∧
      (first = '-' ∨ first = 'N' ∨ first = 'I' ∨ isDigit first = true))
    (reads : ∀ position rest, Stops rest → ∃ after, scalar ⟨position, text.toList ++ rest⟩ =
      .ok (.float number, ⟨after, rest⟩)) : Rereads number := by
  subst written
  exact ⟨plain, begins, fun position rest => reads position rest⟩

/-- Every number is read as it was written, and no number at all as the usual one. -/
theorem rereads {number : Double} (proper : number.isNan = true → number = .nan) : Rereads number := by
  cases finite : number.isFinite with
  | true =>
      obtain ⟨figures, sound, text, value⟩ := Figures.exists_written finite
      obtain ⟨first, tail, shape, starts⟩ := Figures.text_begins sound
      refine .of_text rfl (text ▸ Figures.text_plain sound)
        ⟨first, tail, text ▸ shape, starts.imp_right fun digit => .inr (.inr digit)⟩ ?_
      intro position rest stops
      rw [← text]
      exact ⟨_, Figures.scalar_text sound stops value⟩
  | false =>
      cases nan : number.isNan with
      | true =>
          rw [proper nan]
          exact .of_text rfl (by decide) ⟨'N', _, rfl, by simp⟩
            fun position _ _ => ⟨position + 3, rfl⟩
      | false =>
          have bits : number.magnitudeBits = Double.infinityBits := by
            have most := of_decide_eq_false nan
            have least := of_decide_eq_false finite
            omega
          have whole := Double.ofParts_parts nan
          rw [bits] at whole
          cases negative : number.isNegative with
          | true =>
              have written : writtenNumber number = "-Infinity" := by
                simp [writtenNumber, nan, finite, negative]
              refine .of_text written (by decide) ⟨'-', _, rfl, by simp⟩ fun position _ _ => ?_
              rw [← whole, negative]
              exact ⟨position + 9, rfl⟩
          | false =>
              have written : writtenNumber number = "Infinity" := by
                simp [writtenNumber, nan, finite, negative]
              refine .of_text written (by decide) ⟨'I', _, rfl, by simp⟩ fun position _ _ => ?_
              rw [← whole, negative]
              exact ⟨position + 8, rfl⟩

end ChipEight.Json
