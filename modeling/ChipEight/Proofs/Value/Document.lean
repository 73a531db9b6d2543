/-
This file says what documents have to do with the values that they say: the parts of one are those of the
other, and a document that is made of a value says it again.
-/

import ChipEight.Proofs.Value.Distinct
import ChipEight.Value.Document

namespace ChipEight

namespace Entries

variable {A B : Type} {entries : List (Key × A)} {key : Key}

/-- The entries with their values changed. -/
def mapValues (change : A → B) (entries : List (Key × A)) : List (Key × B) :=
  entries.map fun entry => (entry.1, change entry.2)

theorem mem_mapValues {change : A → B} {entry : Key × B} (member : entry ∈ mapValues change entries) :
    ∃ value, (entry.1, value) ∈ entries ∧ entry.2 = change value := by
  obtain ⟨⟨key, value⟩, within, rfl⟩ := List.mem_map.mp member
  exact ⟨value, within, rfl⟩

theorem mapValues_mem {change : A → B} {value : A} (member : (key, value) ∈ entries) :
    (key, change value) ∈ mapValues change entries :=
  List.mem_map.mpr ⟨_, member, rfl⟩

theorem find?_mapValues (change : A → B) (entries : List (Key × A)) (key : Key) :
    find? (mapValues change entries) key = (find? entries key).map change := by
  induction entries with
  | nil => rfl
  | cons entry rest ih =>
      obtain ⟨present, value⟩ := entry
      change find? ((present, change value) :: mapValues change rest) key = _
      rw [find?, find?, ih]
      split <;> rfl

theorem put_mapValues (change : A → B) (entries : List (Key × A)) (key : Key) (value : A) :
    put (mapValues change entries) key (change value) = mapValues change (put entries key value) := by
  induction entries with
  | nil => rfl
  | cons entry rest ih =>
      obtain ⟨present, old⟩ := entry
      change put ((present, change old) :: mapValues change rest) key (change value) = _
      rw [put, put, ih]
      split <;> rfl

theorem faces_mapValues (change : A → B) (entries : List (Key × A)) :
    faces (mapValues change entries) = faces entries := by
  rw [faces, mapValues, List.map_map]
  rfl

theorem putAll_distinct {others : List (Key × A)} (distinct : (faces entries).Nodup) :
    (faces (putAll entries others)).Nodup := by
  induction others generalizing entries with
  | nil => exact distinct
  | cons entry rest ih => exact ih (put_distinct distinct)

theorem mem_of_putAll {others : List (Key × A)} {entry : Key × A} (member : entry ∈ putAll entries others) :
    entry ∈ entries ∨ ∃ other ∈ others, entry.2 = other.2 := by
  induction others generalizing entries with
  | nil => exact .inl member
  | cons other rest ih =>
      rcases ih member with held | ⟨later, within, same⟩
      · exact (mem_of_put held).imp_right fun same => ⟨other, List.mem_cons_self, same⟩
      · exact .inr ⟨later, List.mem_cons_of_mem _ within, same⟩

end Entries

namespace Document

theorem itemValues_eq (items : List Document) : itemValues items = items.map value := by
  induction items with
  | nil => rfl
  | cons item rest ih => rw [itemValues, ih, List.map_cons]

theorem entryValues_eq (entries : List (Key × Document)) :
    entryValues entries = Entries.mapValues value entries := by
  induction entries with
  | nil => rfl
  | cons entry rest ih =>
      rw [entryValues, ih]
      rfl

mutual
/-- A document that is made of a value says it. -/
theorem value_ofValue (known : Value) : (ofValue known).value = known := by
  cases known with
  | list items => rw [ofValue, value, itemValues_ofItems items]
  | dict entries => rw [ofValue, value, entryValues_ofEntries entries]
  | _ => rfl

theorem itemValues_ofItems (items : List Value) : itemValues (ofItems items) = items := by
  cases items with
  | nil => rfl
  | cons item rest => rw [ofItems, itemValues, value_ofValue item, itemValues_ofItems rest]

theorem entryValues_ofEntries (entries : List (Key × Value)) : entryValues (ofEntries entries) = entries := by
  cases entries with
  | nil => rfl
  | cons entry rest => rw [ofEntries, entryValues, value_ofValue entry.2, entryValues_ofEntries rest]
end

mutual
/-- A document that is made of a value has no marks. -/
theorem marks_ofValue (known : Value) : (ofValue known).marks = [] := by
  cases known with
  | list items => rw [ofValue, marks, itemMarks_ofItems items]; rfl
  | dict entries => rw [ofValue, marks, entryMarks_ofEntries entries]; rfl
  | _ => rfl

theorem itemMarks_ofItems (items : List Value) : itemMarks (ofItems items) = [] := by
  cases items with
  | nil => rfl
  | cons item rest => rw [ofItems, itemMarks, marks_ofValue item, itemMarks_ofItems rest]; rfl

theorem entryMarks_ofEntries (entries : List (Key × Value)) : entryMarks (ofEntries entries) = [] := by
  cases entries with
  | nil => rfl
  | cons entry rest => rw [ofEntries, entryMarks, marks_ofValue entry.2, entryMarks_ofEntries rest]; rfl
end

theorem ofValue_single (known : Value) : (ofValue known).IsSingle := by
  unfold IsSingle
  rw [marks_ofValue]
  exact List.nodup_nil

end Document

end ChipEight
