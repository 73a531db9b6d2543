/-
This file shows that a text between quotes is read as it was written, character by character. Only the
two halves of a pair, next to one another, would be put together.
-/

import ChipEight.Json.Reader
import ChipEight.Json.Writer
import ChipEight.Proofs.Text.Digits
import Mathlib.Data.List.Chain
import Mathlib.Tactic.SplitIfs

namespace ChipEight.Json

open Text

/-! ### Numbers of characters -/

theorem numbered_eq {code : Nat} (small : code < 0x10000) :
    numbered code = '\x5c' :: 'u' :: placed 16 4 code := by
  unfold numbered
  rw [padded_lower small (by decide)]
  rfl

/-- The digits of a number of sixteen bits are read as that number. -/
theorem fourDigits?_placed {code : Nat} (small : code < 0x10000) (rest : List Char) :
    fourDigits? (placed 16 4 code ++ rest) = some code := by
  have digit (value : Nat) : Hex.digitValue? (value % 16).digitChar = some (value % 16) :=
    digitValue_lower ⟨value % 16, Nat.mod_lt _ (by decide)⟩
  simp only [placed, List.nil_append, List.cons_append, fourDigits?, digit, bind, Option.bind, pure,
    Option.some.injEq]
  omega

theorem drop_placed (code : Nat) (rest : List Char) : (placed 16 4 code ++ rest).drop 4 = rest := rfl

/-- The character of a number below those of pairs. -/
theorem character_code {character : Char} (small : Half.code character < 0x10000) :
    Half.character (Half.code character) = character := by
  have valid : character.toNat < 0xd800 ∨ 0xdfff < character.toNat ∧ character.toNat < 0x110000 :=
    character.valid
  unfold Half.code Half.place Half.limit Half.lowest at small ⊢
  unfold Half.character Half.isHalf Half.place Half.limit Half.lowest
  split at small
  case isTrue within =>
    rw [if_pos within, if_pos (by simp; omega)]
    have same : character.toNat - 0x10a000 + 0xd800 - 0xd800 + 0x10a000 = character.toNat := by omega
    rw [same, Char.ofNat_toNat]
  case isFalse without =>
    rw [if_neg without, if_neg (by simp; omega), Char.ofNat_toNat]

theorem code_large {character : Char} (large : 0x10000 ≤ Half.code character) :
    Half.code character = character.toNat := by
  unfold Half.code Half.place Half.limit Half.lowest at large ⊢
  split at large
  · omega
  case isFalse without => exact if_neg without

/-- Two numbers of sixteen bits are the halves of a number beyond those. -/
structure Halves (code high low : Nat) : Prop where
  first : isHighHalf high = true
  second : isLowHalf low = true
  whole : 0x10000 + (high - 0xd800) * 0x400 + (low - 0xdc00) = code

theorem Halves.small {code high low : Nat} (halves : Halves code high low) :
    high < 0x10000 ∧ low < 0x10000 := by
  obtain ⟨first, second, -⟩ := halves
  simp only [isHighHalf, isLowHalf, Bool.and_eq_true, decide_eq_true_eq] at first second
  omega

/-- A number beyond sixteen bits is written as the halves of a pair. -/
theorem numberedPair_eq {code : Nat} (large : 0x10000 ≤ code) (most : code < 0x110000) :
    ∃ high low, Halves code high low ∧
      numberedPair code = '\x5c' :: 'u' :: (placed 16 4 high ++ '\x5c' :: 'u' :: placed 16 4 low) := by
  refine ⟨0xd800 + (code - 0x10000) / 0x400, 0xdc00 + (code - 0x10000) % 0x400, ⟨?_, ?_, ?_⟩, ?_⟩
  · simp only [isHighHalf, Bool.and_eq_true, decide_eq_true_eq]
    omega
  · simp only [isLowHalf, Bool.and_eq_true, decide_eq_true_eq]
    omega
  · omega
  · unfold numberedPair
    rw [if_neg (by omega)]
    dsimp only
    rw [numbered_eq (by omega), numbered_eq (by omega)]
    rfl

/-- The ways in which a character is written between quotes. -/
inductive Written (character : Char) : List Char → Prop
  | escaped (mark : Char) (other : mark ≠ 'u') (named : escapes.lookup mark = some character) :
      Written character ['\x5c', mark]
  | numbered (small : Half.code character < 0x10000) :
      Written character ('\x5c' :: 'u' :: placed 16 4 (Half.code character))
  | paired (high low : Nat) (halves : Halves character.toNat high low) :
      Written character ('\x5c' :: 'u' :: (placed 16 4 high ++ '\x5c' :: 'u' :: placed 16 4 low))
  | plain (unquoted : character ≠ '\x22') (unescaped : character ≠ '\x5c')
      (shown : 0x20 ≤ character.toNat) (basic : character.toNat < 0x7f) : Written character [character]

theorem Written.length_pos {character : Char} {text : List Char} (written : Written character text) :
    0 < text.length := by
  cases written <;> exact Nat.zero_lt_succ _

theorem basic_of_unnumbered {character : Char}
    (within : ¬ (decide (Half.code character < 0x20) || Half.isHalf (Half.code character) ||
      (true && decide (0x7f ≤ Half.code character))) = true) :
    0x20 ≤ character.toNat ∧ character.toNat < 0x7f := by
  have codes : Half.code character = character.toNat ∨
      Half.lowest ≤ Half.code character ∧ Half.code character < Half.limit := by
    unfold Half.code Half.place Half.limit Half.lowest
    split <;> omega
  have bounds : (0x20 ≤ Half.code character ∧
      (Half.lowest ≤ Half.code character → Half.limit ≤ Half.code character)) ∧
      Half.code character < 0x7f := by
    simpa [Half.isHalf] using within
  omega

theorem writtenCharacter_written (character : Char) :
    Written character (writtenCharacter true character) := by
  unfold writtenCharacter
  simp only [beq_iff_eq]
  split_ifs with quote stroke line back tab bell feed beyond
  · subst quote
    exact .escaped '\x22' (by decide) (by decide)
  · subst stroke
    exact .escaped '\x5c' (by decide) (by decide)
  · exact line ▸ .escaped 'n' (by decide) (by decide)
  · exact back ▸ .escaped 'r' (by decide) (by decide)
  · exact tab ▸ .escaped 't' (by decide) (by decide)
  · exact bell ▸ .escaped 'b' (by decide) (by decide)
  · exact feed ▸ .escaped 'f' (by decide) (by decide)
  · by_cases small : Half.code character < 0x10000
    · unfold numberedPair
      rw [if_pos small, numbered_eq small]
      exact .numbered small
    · have same := code_large (Nat.le_of_not_lt small)
      have most : character.toNat < 0x110000 := by
        have valid : character.toNat < 0xd800 ∨
            0xdfff < character.toNat ∧ character.toNat < 0x110000 := character.valid
        omega
      have large : 0x10000 ≤ character.toNat := same ▸ Nat.le_of_not_lt small
      obtain ⟨high, low, halves, written⟩ := numberedPair_eq large most
      rw [same, written]
      exact .paired high low halves
  · obtain ⟨shown, basic⟩ := basic_of_unnumbered beyond
    exact .plain quote stroke shown basic

/-- Characters of the first 127 that end no line by themselves. -/
def Plain (text : List Char) : Prop := ∀ character ∈ text, character.toNat < 0x7f ∧ character ≠ '\r'

instance (text : List Char) : Decidable (Plain text) := List.decidableBAll _ text

theorem Plain.append {first second : List Char} (one : Plain first) (other : Plain second) :
    Plain (first ++ second) := List.forall_mem_append.mpr ⟨one, other⟩

theorem placed_plain (number : Nat) : Plain (placed 16 4 number) := by
  have digit : ∀ value : Fin 16, value.val.digitChar.toNat < 0x7f ∧ value.val.digitChar ≠ '\r' := by
    decide
  have each (value : Nat) : (value % 16).digitChar.toNat < 0x7f ∧ (value % 16).digitChar ≠ '\r' :=
    digit ⟨value % 16, Nat.mod_lt _ (by decide)⟩
  simp [Plain, placed, each]

theorem Written.plain_text {character : Char} {text : List Char} (written : Written character text) :
    Plain text := by
  have marked : Plain ['\x5c', 'u'] := by decide
  cases written with
  | escaped mark other named =>
      have marks : ∀ entry ∈ escapes, Plain ['\x5c', entry.1] := by decide
      obtain ⟨before, after, shape, -⟩ := List.lookup_eq_some_iff.mp named
      exact marks (mark, character) (by simp [shape])
  | numbered small => exact marked.append (placed_plain _)
  | paired high low halves =>
      exact marked.append ((placed_plain _).append (marked.append (placed_plain _)))
  | plain unquoted unescaped shown basic =>
      rintro _ ⟨⟩
      · exact ⟨basic, by rintro rfl; exact absurd shown (by decide)⟩
      · contradiction

theorem writtenText_plain (text : String) : Plain (writtenText true text).toList := by
  have quote : Plain ['\x22'] := by decide
  have inner : Plain (text.toList.flatMap (writtenCharacter true)) := by
    intro character member
    obtain ⟨source, -, inside⟩ := List.mem_flatMap.mp member
    exact (writtenCharacter_written source).plain_text character inside
  rw [writtenText, String.toList_ofList]
  exact quote.append (inner.append quote)

/-! ### Reading one character -/

/-- What follows a number does not complete it to a pair. -/
def Apart (code : Nat) (rest : List Char) : Prop :=
  isHighHalf code = true → ∀ second, rest = '\x5c' :: 'u' :: second →
    ∃ low, fourDigits? second = some low ∧ isLowHalf low = false

theorem numberedCharacter_single (position : Nat) {code : Nat} {rest : List Char} (small : code < 0x10000)
    (more : rest ≠ []) (apart : Apart code rest) :
    numberedCharacter ⟨position, placed 16 4 code ++ rest⟩ = .ok (Half.character code, 4) := by
  unfold numberedCharacter
  rw [drop_placed, fourDigits?_placed small]
  split
  case h_1 nothing => exact absurd rfl more
  case h_2 unread => cases unread
  case h_3 number _ given =>
    cases given
    split
    case h_1 second _ =>
      cases high : isHighHalf code with
      | false => simp
      | true =>
          obtain ⟨low, digits, other⟩ := apart high second rfl
          simp [digits, other]
    case h_2 => rfl

theorem numberedCharacter_pair (position : Nat) {code high low : Nat} {rest : List Char}
    (halves : Halves code high low) (more : rest ≠ []) :
    numberedCharacter ⟨position, placed 16 4 high ++ '\x5c' :: 'u' :: (placed 16 4 low ++ rest)⟩ =
      .ok (Char.ofNat code, 10) := by
  obtain ⟨small, others⟩ := halves.small
  have filled : rest.isEmpty = false := by simpa using more
  unfold numberedCharacter
  rw [drop_placed, fourDigits?_placed small]
  simp only [drop_placed, halves.first, halves.second, filled, Bool.not_false, Bool.and_self, if_true,
    fourDigits?_placed others]
  exact congrArg (fun number => Except.ok (Char.ofNat number, 10)) halves.whole

theorem quotedFrom_number {start fuel position count : Nat} {read rest : List Char} {character : Char}
    (reads : numberedCharacter ⟨position + 2, rest⟩ = .ok (character, count)) :
    quotedFrom start (fuel + 1) read ⟨position, '\x5c' :: 'u' :: rest⟩ =
      quotedFrom start fuel (character :: read) ⟨position + (2 + count), rest.drop count⟩ := by
  have cursor : Cursor.drop ⟨position, '\x5c' :: 'u' :: rest⟩ 2 = ⟨position + 2, rest⟩ := rfl
  rw [quotedFrom]
  simp only [cursor, reads, bind, Except.bind]
  simp [Cursor.drop, Nat.add_comm 2 count]

theorem quotedFrom_escape {start fuel position : Nat} {read rest : List Char} {mark character : Char}
    (other : mark ≠ 'u') (named : escapes.lookup mark = some character) :
    quotedFrom start (fuel + 1) read ⟨position, '\x5c' :: mark :: rest⟩ =
      quotedFrom start fuel (character :: read) ⟨position + 2, rest⟩ := by
  rw [quotedFrom]
  simp only [named]
  rfl

theorem quotedFrom_plain {start fuel position : Nat} {read rest : List Char} {character : Char}
    (unquoted : character ≠ '\x22') (unescaped : character ≠ '\x5c')
    (shown : 0x20 ≤ character.toNat) :
    quotedFrom start (fuel + 1) read ⟨position, character :: rest⟩ =
      quotedFrom start fuel (character :: read) ⟨position + 1, rest⟩ := by
  rw [quotedFrom]
  split
  case h_1 none => cases none
  case h_2 same =>
    cases same
    exact absurd rfl unquoted
  case h_6 first tail _ _ _ _ same =>
    cases same
    rw [if_neg (by omega)]
    rfl
  all_goals
    rename_i same
    cases same
    exact absurd rfl unescaped

/-- A character is read as it was written. -/
theorem quotedFrom_written (start fuel position : Nat) (read : List Char) (character : Char)
    {rest : List Char} (more : rest ≠ []) (apart : Apart (Half.code character) rest) :
    ∃ after, quotedFrom start (fuel + 1) read ⟨position, writtenCharacter true character ++ rest⟩ =
      quotedFrom start fuel (character :: read) ⟨after, rest⟩ := by
  have written := writtenCharacter_written character
  generalize writtenCharacter true character = text at written ⊢
  cases written with
  | escaped mark other named => exact ⟨_, quotedFrom_escape other named⟩
  | numbered small =>
      have reads := numberedCharacter_single (position + 2) small more apart
      rw [character_code small] at reads
      exact ⟨_, quotedFrom_number reads⟩
  | paired high low halves =>
      have reads := numberedCharacter_pair (position + 2) halves more
      rw [Char.ofNat_toNat] at reads
      simp only [List.cons_append, List.append_assoc]
      exact ⟨_, quotedFrom_number reads⟩
  | plain unquoted unescaped shown basic => exact ⟨_, quotedFrom_plain unquoted unescaped shown⟩

/-! ### Reading a text -/

/-- No first half of a pair stands before a second one. -/
def Unpaired (text : List Char) : Prop :=
  text.IsChain fun first second =>
    isHighHalf (Half.code first) = true → isLowHalf (Half.code second) = false

instance (text : List Char) : Decidable (Unpaired text) :=
  inferInstanceAs (Decidable (text.IsChain _))

/-- A character that does not complete a pair is not read as if it did. -/
theorem apart_written {code : Nat} {next : Char} (rest : List Char)
    (unpaired : isHighHalf code = true → isLowHalf (Half.code next) = false) :
    Apart code (writtenCharacter true next ++ rest) := by
  intro high second starts
  have written := writtenCharacter_written next
  generalize writtenCharacter true next = text at written starts
  cases written with
  | escaped mark other named =>
      cases starts
      exact absurd rfl other
  | numbered small =>
      cases starts
      exact ⟨_, fourDigits?_placed small rest, unpaired high⟩
  | paired first last halves =>
      cases starts
      refine ⟨first, fourDigits?_placed halves.small.1 ('\x5c' :: 'u' :: placed 16 4 last ++ rest), ?_⟩
      have bounds := halves.first
      simp only [isHighHalf, isLowHalf, Bool.and_eq_true, decide_eq_true_eq, Bool.and_eq_false_iff,
        decide_eq_false_iff_not] at bounds ⊢
      omega
  | plain _ unescaped =>
      cases starts
      exact absurd rfl unescaped

/-- A text is read up to the quote behind it. -/
theorem quotedFrom_text (start : Nat) {fuel : Nat} (position : Nat) (read rest : List Char)
    {text : List Char} (unpaired : Unpaired text) (enough : text.length < fuel) :
    ∃ after, quotedFrom start fuel read
        ⟨position, text.flatMap (writtenCharacter true) ++ '\x22' :: rest⟩ =
      .ok (text.reverse ++ read, ⟨after, rest⟩) := by
  induction text generalizing fuel position read with
  | nil =>
      obtain ⟨fuel, rfl⟩ := Nat.exists_eq_add_of_lt enough
      exact ⟨position + 1, by simp [quotedFrom, Cursor.drop]⟩
  | cons first others ih =>
      obtain ⟨fuel, rfl⟩ : ∃ more, fuel = more + 1 := Nat.exists_eq_succ_of_ne_zero (by omega)
      have apart : Apart (Half.code first)
          (others.flatMap (writtenCharacter true) ++ '\x22' :: rest) := by
        cases others with
        | nil => exact fun _ _ starts => nomatch starts
        | cons second others =>
            rw [List.flatMap_cons, List.append_assoc]
            exact apart_written _ (List.isChain_cons_cons.mp unpaired).1
      rw [List.flatMap_cons, List.append_assoc]
      obtain ⟨after, step⟩ := quotedFrom_written start fuel position read first (by simp) apart
      obtain ⟨last, reads⟩ := ih after (first :: read) unpaired.tail (Nat.lt_of_succ_lt_succ enough)
      rw [step, reads]
      exact ⟨last, by simp⟩

/-- A text between quotes is read as it was written. -/
theorem quotedText_written {fuel : Nat} (position : Nat) (rest : List Char) {text : String}
    (unpaired : Unpaired text.toList) (enough : text.toList.length < fuel) :
    ∃ after, quotedText fuel ⟨position, (writtenText true text).toList ++ rest⟩ =
      .ok (text, ⟨after, rest⟩) := by
  have shape : (writtenText true text).toList ++ rest =
      '\x22' :: (text.toList.flatMap (writtenCharacter true) ++ '\x22' :: rest) := by
    simp [writtenText]
  obtain ⟨after, reads⟩ := quotedFrom_text position (position + 1) [] rest unpaired enough
  refine ⟨after, ?_⟩
  rw [shape, quotedText]
  simp only [Cursor.drop, List.drop_succ_cons, List.drop_zero, reads, bind, Except.bind]
  simp [pure, Except.pure]

end ChipEight.Json
