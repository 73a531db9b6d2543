/-
This file shows that a value that is read from a JSON text has each key of a mapping once, also where
the text names a key again.
-/

import ChipEight.Json.Reader
import ChipEight.Proofs.Value.Distinct

namespace ChipEight.Json

/-- What is read as a number is no collection. -/
theorem number?_distinct {text : List Char} {found : Except Defect Value × Nat} {value : Value}
    (finds : number? text = some found) (reads : found.1 = .ok value) : value.Distinct := by
  unfold number? at finds
  extract_lets negative unsigned whole at finds
  split at finds
  · cases finds
  · split at finds
    · split at finds
      · cases finds
        cases reads
      · cases finds
        cases reads
        exact .single rfl
    · cases finds
      cases reads
      exact .single rfl

theorem scalar_distinct {cursor : Cursor} {result : Value × Cursor}
    (reads : scalar cursor = .ok result) : result.1.Distinct := by
  unfold scalar at reads
  split at reads
  case h_1 word value known =>
      cases reads
      have listed : (word, value) ∈ words := List.mem_of_find?_eq_some known
      simp only [words, List.mem_cons, Prod.mk.injEq, List.not_mem_nil, or_false] at listed
      rcases listed with ⟨-, rfl⟩ | ⟨-, rfl⟩ | ⟨-, rfl⟩ | ⟨-, rfl⟩ | ⟨-, rfl⟩ | ⟨-, rfl⟩ <;>
      exact .single rfl
  case h_2 =>
      split at reads
      case h_1 value count found =>
          cases reads
          exact number?_distinct found rfl
      all_goals cases reads

mutual
theorem value_distinct {fuel room : Nat} {cursor : Cursor} {result : Value × Cursor}
    (reads : value fuel room cursor = .ok result) : result.1.Distinct := by
  cases fuel with
  | zero => cases reads
  | succ fuel =>
  unfold value at reads
  split at reads
  · cases quoted : quotedText fuel cursor with
    | error problem => rw [quoted] at reads; cases reads
    | ok parts =>
        rw [quoted] at reads
        cases reads
        exact .single rfl
  · dsimp only at reads
    split at reads
    · cases reads
    · split at reads
      · cases reads
        exact .empty
      · exact entries_distinct .empty reads
  · dsimp only at reads
    split at reads
    · cases reads
    · split at reads
      · cases reads
        exact .list (List.forall_mem_nil _)
      · exact items_distinct (List.forall_mem_nil _) reads
  · exact scalar_distinct reads

theorem items_distinct {fuel room : Nat} {known : List Value} {cursor : Cursor}
    {result : Value × Cursor} (proper : ∀ item ∈ known, item.Distinct)
    (reads : items fuel room known cursor = .ok result) : result.1.Distinct := by
  cases fuel with
  | zero => cases reads
  | succ fuel =>
  unfold items at reads
  cases first : value fuel room cursor with
  | error problem => rw [first] at reads; cases reads
  | ok parts =>
      obtain ⟨item, after⟩ := parts
      rw [first] at reads
      have more : ∀ other ∈ item :: known, other.Distinct :=
        List.forall_mem_cons.mpr ⟨value_distinct first, proper⟩
      simp only [bind, Except.bind] at reads
      split at reads
      · cases reads
        exact .list fun other member => more other (List.mem_reverse.mp member)
      · exact items_distinct more reads
      · cases reads

theorem entries_distinct {fuel room : Nat} {known : Entries} {cursor : Cursor}
    {result : Value × Cursor} (proper : (Value.dict known).Distinct)
    (reads : entries fuel room known cursor = .ok result) : result.1.Distinct := by
  cases fuel with
  | zero => cases reads
  | succ fuel =>
  unfold entries at reads
  split at reads
  · cases quoted : quotedText fuel cursor with
    | error problem => rw [quoted] at reads; cases reads
    | ok name =>
    rw [quoted] at reads
    simp only [bind, Except.bind] at reads
    split at reads
    · cases first : value fuel room (name.2.skip.drop 1).skip with
      | error problem => rw [first] at reads; cases reads
      | ok parts =>
          rw [first] at reads
          dsimp only at reads
          have more := proper.put (.text name.1) (value_distinct first)
          split at reads
          · cases reads
            exact more
          · exact entries_distinct more reads
          · cases reads
    · cases reads
  · cases reads
end

/-- A text with a value gives one in which no mapping has one key twice. -/
theorem read_distinct {text : String} {value : Value} (reads : read text = .ok value) :
    value.Distinct := by
  unfold read at reads
  dsimp only at reads
  split at reads
  · cases reads
  · cases first : Json.value (2 * text.toList.length + 2) deepest (Cursor.mk 0 text.toList).skip with
    | error problem => rw [first] at reads; cases reads
    | ok parts =>
        rw [first] at reads
        simp only [bind, Except.bind] at reads
        split at reads
        · cases reads
          exact value_distinct first
        · cases reads

end ChipEight.Json
