/-
This file shows that a text split at a character is the list of its characters split there. The splitting
of texts works on byte positions; here they are those of three stretches of characters.
-/

import Mathlib.Data.String.Basic

namespace ChipEight.Text

open String

/-- The text is cut behind `before`, and `part` is what has been read since. -/
theorem splitOnAux_character (separator : Char) (before part rest : List Char)
    (found : List String) :
    splitOnAux (ofList (before ++ part ++ rest)) (ofList [separator]) ⟨utf8Len before⟩
        ⟨utf8Len before + utf8Len part⟩ 0 found =
      found.reverse ++ (List.splitOnPPrepend (· == separator) rest part.reverse).map ofList := by
  induction rest generalizing before part found with
  | nil =>
      have piece := extract_of_valid before part []
      unfold splitOnAux
      simp only [List.append_nil] at piece ⊢
      rw [if_pos (by simp [-ofList_append, atEnd_iff]), piece]
      simp
  | cons next rest ih =>
      have wanted : (0 : Pos.Raw).get (ofList [separator]) = separator := by
        simpa using get_of_valid [] [separator]
      have behind : (0 : Pos.Raw).next (ofList [separator]) = ⟨separator.utf8Size⟩ := by
        simpa using next_of_valid [] separator []
      have here := get_of_valid (before ++ part) (next :: rest)
      have after := next_of_valid (before ++ part) next rest
      have piece := extract_of_valid before part (next :: rest)
      have still : (⟨utf8Len before + utf8Len part⟩ : Pos.Raw).unoffsetBy 0 =
          ⟨utf8Len before + utf8Len part⟩ := by
        simp [Pos.Raw.unoffsetBy]
      have more : ¬ utf8Len before + utf8Len part + utf8Len (next :: rest) ≤
          utf8Len before + utf8Len part := by
        have := next.utf8Size_pos
        simp only [utf8Len_cons]
        omega
      unfold splitOnAux
      simp only [utf8Len_append, List.headD_cons] at here after
      simp only [atEnd_iff, rawEndPos_ofList, utf8Len_append, Pos.Raw.mk_le_mk, more, if_false,
        wanted, behind, here, after, still]
      split
      case isTrue same =>
        obtain rfl : separator = next := (eq_of_beq same).symm
        have back : (⟨utf8Len before + utf8Len part + separator.utf8Size⟩ : Pos.Raw).unoffsetBy
            ⟨separator.utf8Size⟩ = ⟨utf8Len before + utf8Len part⟩ := by
          simp [Pos.Raw.unoffsetBy]
        rw [if_pos (by simp), back, piece]
        simpa [Nat.add_assoc, List.splitOnPPrepend_cons_eq_if] using
          ih (before ++ part ++ [separator]) [] (ofList part :: found)
      case isFalse other =>
        simpa [List.splitOnPPrepend_cons_eq_if, other, Nat.add_assoc] using
          ih before (part ++ [next]) found

theorem splitOn_character (separator : Char) (text : String) :
    text.splitOn (ofList [separator]) = (text.toList.splitOn separator).map ofList := by
  unfold splitOn
  rw [if_neg (by simp)]
  simpa [List.splitOn] using splitOnAux_character separator [] [] text.toList []

theorem splitOn_ne_nil (separator : Char) (text : String) : text.splitOn (ofList [separator]) ≠ [] := by
  rw [splitOn_character]
  exact fun none => List.splitOn_ne_nil _ _ (List.map_eq_nil_iff.mp none)

/-- A text without the character is not cut. -/
theorem splitOn_plain {separator : Char} {text : String} (plain : separator ∉ text.toList) :
    text.splitOn (ofList [separator]) = [text] := by
  rw [splitOn_character, List.splitOn_eq_singleton plain, List.map_singleton, ofList_toList]

/-- Two texts with the character between them are cut there. -/
theorem splitOn_joined (separator : Char) (first second : String) :
    (first ++ ofList [separator] ++ second).splitOn (ofList [separator]) =
      first.splitOn (ofList [separator]) ++ second.splitOn (ofList [separator]) := by
  have characters : (first ++ ofList [separator] ++ second).toList = first.toList ++ separator :: second.toList := by
    simp
  rw [splitOn_character, splitOn_character, splitOn_character, characters, List.splitOn_append_cons_self,
    List.map_append]

/-- Texts without the character are found again between the places where it joins them. -/
theorem splitOn_intercalate {separator : Char} {parts : List String} (filled : parts ≠ [])
    (plain : ∀ part ∈ parts, separator ∉ part.toList) :
    ((ofList [separator]).intercalate parts).splitOn (ofList [separator]) = parts := by
  induction parts with
  | nil => exact absurd rfl filled
  | cons part rest ih =>
      obtain ⟨here, others⟩ := List.forall_mem_cons.mp plain
      cases rest with
      | nil => rw [intercalate_singleton, splitOn_plain here]
      | cons next more =>
          rw [intercalate_cons_cons, splitOn_joined, splitOn_plain here, ih (List.cons_ne_nil next more) others,
            List.singleton_append]

/-- Joined texts have no characters but theirs and that between them. -/
theorem mem_intercalate {separator character : Char} {parts : List String}
    (member : character ∈ ((ofList [separator]).intercalate parts).toList) :
    character = separator ∨ ∃ part ∈ parts, character ∈ part.toList := by
  induction parts with
  | nil => exact nomatch member
  | cons part rest ih =>
      cases rest with
      | nil => exact .inr ⟨part, List.mem_cons_self, by rwa [intercalate_singleton] at member⟩
      | cons next more =>
          rw [intercalate_cons_cons, toList_append, toList_append, toList_ofList, List.append_assoc,
            List.mem_append, List.singleton_append, List.mem_cons] at member
          rcases member with here | same | later
          · exact .inr ⟨part, List.mem_cons_self, here⟩
          · exact .inl same
          · exact (ih later).imp_right fun ⟨other, inside, held⟩ => ⟨other, List.mem_cons_of_mem part inside, held⟩

end ChipEight.Text
