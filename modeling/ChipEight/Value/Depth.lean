/-
This file counts how deep values are inside one another.
-/

import ChipEight.Value

namespace ChipEight.Value

mutual
/-- The greatest count of values that are inside one another, this one among them. -/
def depth : Value → Nat
  | .list items => depthOfItems items + 1
  | .dict entries => depthOfEntries entries + 1
  | _ => 1

def depthOfItems : List Value → Nat
  | [] => 0
  | item :: rest => max item.depth (depthOfItems rest)

def depthOfEntries : List (Key × Value) → Nat
  | [] => 0
  | (_, value) :: rest => max value.depth (depthOfEntries rest)
end

/-- Numbers hold no other values. -/
theorem depth_of_place? {value : Value} {place : Place} (number : value.place? = some place) : value.depth = 1 := by
  cases value
  case list => cases number
  case dict => cases number
  all_goals rfl

theorem depthOfItems_le_iff {items : List Value} {room : Nat} :
    depthOfItems items ≤ room ↔ ∀ item ∈ items, item.depth ≤ room := by
  induction items with
  | nil => simp [depthOfItems]
  | cons item rest ih => rw [depthOfItems, Nat.max_le, ih, List.forall_mem_cons]

theorem depthOfEntries_le_iff {entries : Entries} {room : Nat} :
    depthOfEntries entries ≤ room ↔ ∀ entry ∈ entries, entry.2.depth ≤ room := by
  induction entries with
  | nil => simp [depthOfEntries]
  | cons entry rest ih => rw [depthOfEntries, Nat.max_le, ih, List.forall_mem_cons]

/-- A list fits into so many levels if its items fit into one less. -/
@[simp] theorem depth_list_le_iff {items : List Value} {room : Nat} :
    (Value.list items).depth ≤ room + 1 ↔ ∀ item ∈ items, item.depth ≤ room := by
  rw [depth, Nat.add_le_add_iff_right, depthOfItems_le_iff]

@[simp] theorem depth_dict_le_iff {entries : Entries} {room : Nat} :
    (Value.dict entries).depth ≤ room + 1 ↔ ∀ entry ∈ entries, entry.2.depth ≤ room := by
  rw [depth, Nat.add_le_add_iff_right, depthOfEntries_le_iff]

end ChipEight.Value
