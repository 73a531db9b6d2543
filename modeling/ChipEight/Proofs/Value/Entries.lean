/-
This file says what is in a mapping, and what is in it after a value is put into it.
-/

import ChipEight.Value

namespace ChipEight

namespace Entries

variable {A : Type} {entries : List (Key × A)} {key : Key} {value : A}

theorem find?_mem (found : find? entries key = some value) :
    ∃ present, (present, value) ∈ entries := by
  induction entries with
  | nil => exact nomatch found
  | cons entry rest ih =>
      obtain ⟨present, old⟩ := entry
      rw [find?] at found
      split at found
      · cases found
        exact ⟨present, List.mem_cons_self⟩
      · exact (ih found).imp fun _ => List.mem_cons_of_mem _

theorem find?_congr {other : Key} (same : other.face = key.face) :
    find? entries other = find? entries key := by
  induction entries with
  | nil => rfl
  | cons entry rest ih =>
      obtain ⟨present, old⟩ := entry
      unfold find? Key.same
      rw [same, ih]

theorem find?_head (key : Key) (value : A) (rest : List (Key × A)) : find? ((key, value) :: rest) key = some value :=
  if_pos (Key.sameSelf key)

theorem find?_tail {other : Key} (different : other.face ≠ key.face) (value : A) (rest : List (Key × A)) :
    find? ((key, value) :: rest) other = find? rest other :=
  if_neg fun same => different (eq_of_beq same).symm

theorem has_put {other : Key} (held : has entries other = true) :
    has (put entries key value) other = true := by
  unfold has at held ⊢
  by_cases same : other.face = key.face
  · rw [find?_congr same, findPutSame]
    rfl
  · rw [findPutOther entries value same]
    exact held

/-- What is put under a key that is there leaves the keys as they are. -/
theorem names_put (value : A) (held : (find? entries key).isSome = true) :
    names (put entries key value) = names entries := by
  induction entries with
  | nil => exact nomatch held
  | cons entry rest ih =>
      obtain ⟨present, old⟩ := entry
      rw [find?] at held
      rw [put]
      split
      · rfl
      case isFalse other =>
        rw [if_neg other] at held
        exact congrArg (present :: ·) (ih held)

theorem mem_put {entry : Key × A} (held : (find? entries key).isSome = true)
    (member : entry ∈ put entries key value) :
    entry ∈ entries ∨ entry.1 ∈ names entries ∧ entry.2 = value := by
  induction entries with
  | nil => exact nomatch held
  | cons first rest ih =>
      obtain ⟨present, old⟩ := first
      rw [find?] at held
      rw [put] at member
      split at member
      · rcases List.mem_cons.mp member with rfl | later
        · exact .inr ⟨List.mem_cons_self, rfl⟩
        · exact .inl (List.mem_cons_of_mem _ later)
      case isFalse other =>
        rw [if_neg other] at held
        rcases List.mem_cons.mp member with rfl | later
        · exact .inl List.mem_cons_self
        · exact (ih held later).imp (List.mem_cons_of_mem _) (And.imp_left (List.mem_cons_of_mem _))

end Entries

end ChipEight
