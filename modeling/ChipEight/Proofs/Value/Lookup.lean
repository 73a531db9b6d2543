/-
This file says what is found when a mapping, a list or another value is asked for its parts.
-/

import ChipEight.Value.Lookup

namespace ChipEight.Value

/-- Every value is a mapping or has no entries. -/
theorem entries_cases (value : Value) :
    (∃ entries, value = .dict entries) ∨ value.entries? = none := by
  cases value
  case dict entries => exact .inl ⟨entries, rfl⟩
  all_goals exact .inr rfl

theorem getOr_dict (entries : Entries) (name : String) (missing : Value) :
    (Value.dict entries).getOr name missing =
      .ok ((Entries.find? entries (.text name)).getD missing) := rfl

/-- Only a mapping can be asked for a name. -/
theorem getOr_shapeless {value : Value} (shapeless : value.entries? = none) (name : String)
    (missing : Value) : value.getOr name missing = .error .noMember := by
  cases value
  case dict => exact nomatch shapeless
  all_goals rfl

theorem entriesOf_shapeless {value : Value} (shapeless : value.entries? = none) :
    value.entriesOf = .error .noMember := by
  cases value
  case dict => exact nomatch shapeless
  all_goals rfl

theorem contains_dict (entries : Entries) (name : String) :
    (Value.dict entries).contains (.text name) = .ok (Entries.has entries (.text name)) := rfl

theorem item_dict {entries : Entries} {name : String} {value : Value}
    (found : Entries.find? entries (.text name) = some value) :
    (Value.dict entries).item (.text name) = .ok value := by
  unfold item toKey?
  dsimp only
  rw [found]

/-- A list holds a value or not. -/
theorem contains_list (items : List Value) (part : Value) :
    (Value.list items).contains part = .ok (items.any fun item => item.same part) := rfl

end ChipEight.Value
