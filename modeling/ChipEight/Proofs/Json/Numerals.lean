/-
This file shows how numbers are read: by their sign, the digits before the point, those behind it and an
exponent, each as far as it goes.
-/

import ChipEight.Json.Reader
import ChipEight.Proofs.Text.Digits
import Mathlib.Data.List.Induction
import Mathlib.Data.Nat.Digits.Defs
import Mathlib.Tactic.Ring

namespace ChipEight.Json

open Text

/-! ### Digits -/

/-- All characters are digits. -/
def Digits (text : List Char) : Prop := ∀ character ∈ text, isDigit character = true

/-- What follows does not go on with digits. -/
def NoDigit (rest : List Char) : Prop := ∀ first tail, rest = first :: tail → isDigit first = false

theorem takeWhile_digits {digits rest : List Char} (all : Digits digits) (stops : NoDigit rest) :
    (digits ++ rest).takeWhile isDigit = digits := by
  rw [List.takeWhile_append_of_pos all]
  cases rest with
  | nil => simp
  | cons first tail => simp [stops first tail rfl]

theorem digitChar_isDigit : ∀ digit : Fin 10, isDigit digit.val.digitChar = true := by
  decide

theorem digitChar_value : ∀ digit : Fin 10, digit.val.digitChar.toNat - 48 = digit.val := by
  decide

theorem digitChar_eq_zero : ∀ digit : Fin 10, digit.val.digitChar = '0' → digit.val = 0 := by
  decide

theorem toDigits_digits (number : Nat) : Digits (Nat.toDigits 10 number) := by
  intro character member
  obtain ⟨value, small, rfl⟩ := mem_toDigits (by decide) member
  exact digitChar_isDigit ⟨value, small⟩

theorem decimalValue_append (first second : List Char) :
    decimalValue (first ++ second) = decimalValue first * 10 ^ second.length + decimalValue second := by
  induction second using List.reverseRecOn with
  | nil => simp [decimalValue]
  | append_singleton second last ih =>
      unfold decimalValue at ih ⊢
      rw [← List.append_assoc, List.foldl_append, ih]
      simp only [List.foldl_append, List.foldl_cons, List.foldl_nil, List.length_append,
        List.length_singleton, pow_succ]
      ring

/-- Digits are read as the number that they were written for. -/
theorem decimalValue_toDigits (number : Nat) : decimalValue (Nat.toDigits 10 number) = number := by
  induction number using Nat.strongRecOn with
  | ind number ih =>
      have last (digit : Nat) (small : digit < 10) : decimalValue [digit.digitChar] = digit := by
        simpa [decimalValue] using digitChar_value ⟨digit, small⟩
      rw [Nat.toDigits_eq_if (by decide)]
      split
      case isTrue single => exact last number single
      case isFalse several =>
        rw [decimalValue_append, ih (number / 10) (by omega), last _ (Nat.mod_lt _ (by decide))]
        simp only [List.length_singleton]
        omega

/-- The digits before a point: a single zero, or no zero at the start. -/
def Whole (digits : List Char) : Prop :=
  Digits digits ∧ (digits = ['0'] ∨ ∃ first rest, digits = first :: rest ∧ first ≠ '0')

theorem toDigits_whole (number : Nat) : Whole (Nat.toDigits 10 number) := by
  refine ⟨toDigits_digits number, ?_⟩
  induction number using Nat.strongRecOn with
  | ind number ih =>
      rw [Nat.toDigits_eq_if (by decide)]
      split
      case isTrue single =>
        by_cases zero : number = 0
        · subst zero
          exact .inl rfl
        · exact .inr ⟨_, [], rfl, fun same => zero (digitChar_eq_zero ⟨number, single⟩ same)⟩
      case isFalse several =>
        rcases ih (number / 10) (by omega) with zero | ⟨first, rest, shape, other⟩
        · have value := decimalValue_toDigits (number / 10)
          rw [zero] at value
          change 0 = number / 10 at value
          omega
        · exact .inr ⟨first, rest ++ _, by rw [shape]; rfl, other⟩

/-! ### Numbers -/

/-- What follows a value in a list, in a mapping or at the end of a text. -/
def Stops (rest : List Char) : Prop := ∀ first tail, rest = first :: tail → first = ',' ∨ first = '\n'

theorem Stops.noDigit {rest : List Char} (stops : Stops rest) : NoDigit rest := by
  intro first tail shape
  rcases stops first tail shape with rfl | rfl <;> rfl

/-- The parts of a number: its sign, the digits before and behind the point, and an exponent, which is
below zero or not. -/
structure Figures where
  negative : Bool
  whole : List Char
  places : List Char := []
  power : Option (Bool × List Char) := none

namespace Figures

def signText (figures : Figures) : List Char := if figures.negative then ['-'] else []

def placesText (figures : Figures) : List Char :=
  if figures.places.isEmpty then [] else '.' :: figures.places

def powerText (figures : Figures) : List Char :=
  match figures.power with
  | none => []
  | some (below, digits) => 'e' :: (if below then '-' else '+') :: digits

def text (figures : Figures) : List Char :=
  figures.signText ++ (figures.whole ++ (figures.placesText ++ figures.powerText))

/-- The value of the exponent. -/
def exponent (figures : Figures) : Int :=
  match figures.power with
  | none => 0
  | some (below, digits) => if below then -(decimalValue digits : Int) else decimalValue digits

/-- The parts are as numbers have them. -/
structure Sound (figures : Figures) : Prop where
  whole : Whole figures.whole
  places : Digits figures.places
  power : ∀ below digits, figures.power = some (below, digits) → Digits digits ∧ digits ≠ []

/-- Digits without a power are sound. -/
theorem sound_bare (negative : Bool) {whole places : List Char} (all : Whole whole)
    (others : Digits places) : Sound ⟨negative, whole, places, none⟩ := by
  refine ⟨all, others, ?_⟩
  intro _ _ given
  cases given

variable {figures : Figures} {rest : List Char}

theorem exponent_text (sound : figures.Sound) (stops : Stops rest) :
    Json.exponent (figures.powerText ++ rest) =
      figures.power.map fun power => (figures.exponent, power.2.length + 2) := by
  unfold powerText exponent
  rcases shape : figures.power with _ | ⟨below, digits⟩
  · cases rest with
    | nil => rfl
    | cons first tail => rcases stops first tail rfl with rfl | rfl <;> rfl
  · obtain ⟨all, some⟩ := sound.power below digits shape
    have filled : digits.isEmpty = false := by simpa using some
    cases below <;>
      simp [Json.exponent, takeWhile_digits all stops.noDigit, filled, Nat.add_comm]

theorem powerText_noDigit (stops : Stops rest) : NoDigit (figures.powerText ++ rest) := by
  unfold powerText
  rcases figures.power with _ | ⟨below, digits⟩
  · exact stops.noDigit
  · rintro first tail ⟨⟩
    rfl

theorem fraction_text (sound : figures.Sound) (stops : Stops rest) :
    fraction (figures.placesText ++ (figures.powerText ++ rest)) = figures.places := by
  unfold placesText
  split
  case isTrue none =>
    rw [List.isEmpty_iff.mp none]
    unfold powerText
    rcases figures.power with _ | ⟨below, digits⟩
    · cases rest with
      | nil => rfl
      | cons first tail => rcases stops first tail rfl with rfl | rfl <;> rfl
    · rfl
  case isFalse some =>
    exact takeWhile_digits sound.places (powerText_noDigit stops)

theorem placesText_noDigit (stops : Stops rest) :
    NoDigit (figures.placesText ++ (figures.powerText ++ rest)) := by
  unfold placesText
  split
  · exact powerText_noDigit stops
  · rintro first tail ⟨⟩
    rfl

/-- The digits before the point are read up to it. -/
theorem whole_text (sound : figures.Sound) (stops : Stops rest) :
    let unsigned := figures.whole ++ (figures.placesText ++ (figures.powerText ++ rest))
    (if unsigned.head? == some '0' then ['0'] else unsigned.takeWhile isDigit) = figures.whole := by
  intro unsigned
  obtain ⟨digits, zero | ⟨first, others, shape, other⟩⟩ := sound.whole
  · simp [unsigned, zero]
  · have read : unsigned.takeWhile isDigit = figures.whole :=
      takeWhile_digits digits (placesText_noDigit stops)
    have start : (unsigned.head? == some '0') = false := by simp [unsigned, shape, other]
    rw [start]
    exact read

/-- The value of the parts of a number. -/
def value (figures : Figures) : Except Defect Value :=
  if figures.places.isEmpty && figures.power.isNone then
    if Numeral.longestDecimal < figures.whole.length then .error (.manyDigits figures.whole.length)
    else .ok (.int (if figures.negative then -(decimalValue figures.whole : Int)
      else decimalValue figures.whole))
  else .ok (.float (Double.ofDecimal figures.negative (decimalValue (figures.whole ++ figures.places))
    (figures.exponent - figures.places.length)))

theorem whole_start (sound : figures.Sound) :
    ∃ first others, figures.whole = first :: others ∧ isDigit first = true := by
  obtain ⟨digits, zero | ⟨first, others, shape, -⟩⟩ := sound.whole
  · exact ⟨'0', [], zero, rfl⟩
  · exact ⟨first, others, shape, digits first (by simp [shape])⟩

theorem sign_text (rest : List Char) (sound : figures.Sound) :
    ((figures.text ++ rest).head? == some '-') = figures.negative ∧
      (if figures.negative then (figures.text ++ rest).drop 1 else figures.text ++ rest) =
        figures.whole ++ (figures.placesText ++ (figures.powerText ++ rest)) := by
  obtain ⟨first, others, shape, digit⟩ := whole_start sound
  unfold text signText
  cases figures.negative with
  | true => simp
  | false =>
      have other : first ≠ '-' := by
        rintro rfl
        exact nomatch digit
      simp [shape, other]

theorem placesText_length (figures : Figures) :
    figures.placesText.length = if figures.places.isEmpty then 0 else figures.places.length + 1 := by
  unfold placesText
  split <;> simp

theorem powerText_length (figures : Figures) :
    figures.powerText.length =
      ((figures.power.map fun power => (figures.exponent, power.2.length + 2)).map Prod.snd).getD 0 := by
  unfold powerText
  rcases figures.power with _ | ⟨below, digits⟩ <;> simp

theorem exponent_shown (figures : Figures) :
    ((figures.power.map fun power => (figures.exponent, power.2.length + 2)).map Prod.fst).getD 0 =
      figures.exponent := by
  unfold exponent
  rcases figures.power with _ | ⟨below, digits⟩ <;> rfl

/-- A number is read by its parts up to where it ends. -/
theorem number?_text (sound : figures.Sound) (stops : Stops rest) :
    number? (figures.text ++ rest) = some (figures.value, figures.text.length) := by
  obtain ⟨sign, unsigned⟩ := sign_text rest sound
  obtain ⟨first, others, shape, -⟩ := whole_start sound
  have filled : figures.whole.isEmpty = false := by simp [shape]
  have length : (if figures.negative then 1 else 0) + figures.whole.length +
      figures.placesText.length + figures.powerText.length = figures.text.length := by
    unfold text signText
    cases figures.negative <;> simp <;> omega
  unfold number?
  simp only [sign, unsigned, whole_text sound stops, filled, Bool.false_eq_true, if_false,
    List.drop_left, fraction_text sound stops]
  rw [← placesText_length, List.drop_length_add_append, List.drop_left, exponent_text sound stops,
    ← powerText_length, length, Option.isNone_map]
  unfold value
  split
  · split <;> rfl
  · rw [exponent_shown]

/-- No word stands where a number does. -/
theorem words_text (sound : figures.Sound) :
    words.find? (fun word => word.1.isPrefixOf (figures.text ++ rest)) = none := by
  obtain ⟨first, others, shape, digit⟩ := whole_start sound
  have other (character : Char) (letter : isDigit character = false) : character ≠ first := by
    rintro rfl
    exact nomatch digit.symm.trans letter
  have letters : ('n' ≠ first ∧ 't' ≠ first ∧ 'f' ≠ first) ∧ 'N' ≠ first ∧ 'I' ≠ first ∧ '-' ≠ first :=
    ⟨⟨other _ rfl, other _ rfl, other _ rfl⟩, other _ rfl, other _ rfl, other _ rfl⟩
  unfold text signText
  rw [shape]
  cases figures.negative <;> simp [words, letters]

/-- A number is read as the value of its parts. -/
theorem scalar_text {position : Nat} {result : Value} (sound : figures.Sound) (stops : Stops rest)
    (value : figures.value = .ok result) :
    scalar ⟨position, figures.text ++ rest⟩ = .ok (result, ⟨position + figures.text.length, rest⟩) := by
  unfold scalar
  simp only [words_text sound, number?_text sound stops, value, Cursor.drop, List.drop_left]

/-! ### Whole numbers -/

/-- The parts of a whole number. -/
def ofInt (number : Int) : Figures := { negative := number < 0, whole := Nat.toDigits 10 number.natAbs }

theorem ofInt_sound (number : Int) : (ofInt number).Sound :=
  sound_bare _ (toDigits_whole _) nofun

theorem text_ofInt (number : Int) : (ofInt number).text = (toString number).toList := by
  cases number <;>
    simp [ofInt, text, signText, placesText, powerText, toString, Int.repr, Nat.repr]

theorem toDigits_short {number width : Nat} (wide : 0 < width) (short : number < Nat.pow 10 width) :
    (Nat.toDigits 10 number).length ≤ width :=
  Nat.toDigits_length 10 number width wide short

/-- A number that is short enough to be shown is read as itself. -/
theorem value_ofInt {number : Int} (short : number.natAbs < Numeral.firstUnshown) :
    (ofInt number).value = .ok (.int number) := by
  unfold Numeral.firstUnshown at short
  have digits : ¬ Numeral.longestDecimal < (Nat.toDigits 10 number.natAbs).length :=
    Nat.not_lt.mpr (toDigits_short (by decide) short)
  have signed : (if number < 0 then -(number.natAbs : Int) else number.natAbs) = number := by
    split <;> omega
  simpa [value, ofInt, digits, decimalValue_toDigits] using signed

end Figures

end ChipEight.Json
