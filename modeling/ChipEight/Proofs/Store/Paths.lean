/-
This file follows names from one mapping of a store to the next, and says what a change of one mapping does to
what they lead to. Nothing is left out of account here: mappings may stand in many places, and within themselves.
-/

import ChipEight.Proofs.Store.Standing

namespace ChipEight

namespace Store

variable {store : Store} {site : Nat} {key name : String} {cell inner new : Cell}
  {path rest : List String}

/-! ### Names one after another -/

/-- What stands under a name of a mapping. -/
def next (store : Store) : Cell → String → Option Cell
  | .scalar _, _ => none
  | .object site, name => store.find? site (.text name)

/-- What names lead to one after another. -/
def along (store : Store) (cell : Cell) (path : List String) : Option Cell :=
  store.walk cell (path.map .text)

@[simp] theorem along_nil (store : Store) (cell : Cell) : store.along cell [] = some cell := rfl

theorem entries_of_isMapping (lacks : store.isMapping site = false) : store.entries site = [] := by
  unfold isMapping at lacks
  unfold entries
  split at lacks
  case h_1 => cases lacks
  case h_2 => rfl

theorem next_eq (store : Store) (cell : Cell) (name : String) :
    store.next cell name = (store.mapping? cell).bind fun site => store.find? site (.text name) := by
  cases cell with
  | scalar => rfl
  | object site =>
      rw [mapping?]
      split
      case isTrue => rfl
      case isFalse lacks =>
        change Entries.find? (store.entries site) _ = _
        rw [entries_of_isMapping (Bool.eq_false_iff.mpr lacks)]
        rfl

@[simp] theorem along_cons (store : Store) (cell : Cell) (name : String) (rest : List String) :
    store.along cell (name :: rest) = (store.next cell name).bind fun inner => store.along inner rest := by
  rw [next_eq]
  exact walk_cons store cell (.text name) (rest.map .text)

theorem along_append (store : Store) (cell : Cell) (path rest : List String) :
    store.along cell (path ++ rest) = (store.along cell path).bind fun inner => store.along inner rest := by
  induction path generalizing cell with
  | nil => rfl
  | cons name more ih =>
      rw [List.cons_append, along_cons, along_cons, Option.bind_assoc]
      exact congrArg _ (funext fun inner => ih inner)

theorem along_further (leads : store.along cell path = some inner) (rest : List String) :
    store.along cell (path ++ rest) = store.along inner rest := by
  rw [along_append, leads, Option.bind_some]

theorem along_single (store : Store) (cell : Cell) (name : String) : store.along cell [name] = store.next cell name := by
  rw [along_cons]
  exact Option.bind_fun_some _

/-- What is under names stands in a mapping. -/
theorem next_mapping (leads : store.next cell name = some inner) : ∃ site, store.mapping? cell = some site := by
  rw [next_eq] at leads
  obtain ⟨site, mapping, -⟩ := Option.bind_eq_some_iff.mp leads
  exact ⟨site, mapping⟩

theorem mapping?_eq_some : store.mapping? cell = some site ↔ cell = .object site ∧ store.isMapping site = true := by
  cases cell with
  | scalar => exact ⟨nofun, fun ⟨same, _⟩ => nomatch same⟩
  | object own =>
      rw [mapping?]
      split
      case isTrue mapping =>
        refine ⟨fun same => ?_, fun ⟨same, _⟩ => ?_⟩
        · cases same
          exact ⟨rfl, mapping⟩
        · cases same
          rfl
      case isFalse lacks =>
        refine ⟨nofun, fun ⟨same, mapping⟩ => ?_⟩
        cases same
        exact absurd mapping lacks

theorem isMapping_iff : store.isMapping site = true ↔ ∃ entries, store.object? site = some (.mapping entries) := by
  unfold isMapping
  split
  case h_1 entries found => exact ⟨fun _ => ⟨entries, found⟩, fun _ => rfl⟩
  case h_2 lacks => exact ⟨nofun, fun ⟨entries, found⟩ => absurd found (lacks entries)⟩

/-! ### A change of one mapping -/

theorem put_of_isMapping (lacks : store.isMapping site = false) (key : Key) (new : Cell) :
    store.put site key new = store := by
  unfold put
  split
  case h_1 entries found => exact nomatch lacks.symm.trans (isMapping_of_object? found)
  case h_2 => rfl

theorem find?_put_same (mapping : store.isMapping site = true) (key : Key) (new : Cell) :
    (store.put site key new).find? site key = some new := by
  obtain ⟨entries, here⟩ := isMapping_iff.mp mapping
  unfold Store.find?
  rw [entries_of_object? (object?_put_same here), Entries.findPutSame]

@[simp] theorem isMapping_put (store : Store) (site : Nat) (key : Key) (new : Cell) (other : Nat) :
    (store.put site key new).isMapping other = store.isMapping other := by
  by_cases same : other = site
  · subst same
    cases mapping : store.isMapping other with
    | false => rw [put_of_isMapping mapping, mapping]
    | true =>
        obtain ⟨entries, here⟩ := isMapping_iff.mp mapping
        exact isMapping_of_object? (object?_put_same here)
  · unfold isMapping
    rw [object?_put_other same]

/-- Under other names of the mapping, and in other mappings, all is as it was. -/
theorem next_put_other (apart : cell = .object site → name ≠ key) :
    (store.put site (.text key) new).next cell name = store.next cell name := by
  cases cell with
  | scalar => rfl
  | object own =>
      change (store.put site (.text key) new).find? own (.text name) = store.find? own (.text name)
      unfold Store.find?
      by_cases same : own = site
      · subst same
        cases mapping : store.isMapping own with
        | false => rw [put_of_isMapping mapping]
        | true =>
            obtain ⟨entries, here⟩ := isMapping_iff.mp mapping
            rw [entries_of_object? (object?_put_same here), entries_of_object? here]
            exact Entries.findPutOther _ _ fun face => apart rfl (Face.text.inj face)
      · have still : (store.put site (.text key) new).entries own = store.entries own := by
          unfold entries
          rw [object?_put_other same]
        rw [still]

theorem next_put_cases (leads : (store.put site (.text key) new).next cell name = some inner) :
    store.next cell name = some inner ∨ cell = .object site ∧ name = key ∧ inner = new := by
  by_cases here : cell = .object site ∧ name = key
  · obtain ⟨rfl, rfl⟩ := here
    obtain ⟨own, mapping⟩ := next_mapping leads
    obtain ⟨same, mapping⟩ := mapping?_eq_some.mp mapping
    cases same
    rw [isMapping_put] at mapping
    exact .inr ⟨rfl, rfl, Option.some.inj (leads.symm.trans (find?_put_same mapping _ _))⟩
  · rw [next_put_other fun same alike => here ⟨same, alike⟩] at leads
    exact .inl leads

/-- A path that does not go on from the mapping by the name leads where it led. -/
theorem along_put_same
    (apart : ∀ begun, store.along cell begun = some (.object site) → ¬ (begun ++ [key] <+: path)) :
    (store.put site (.text key) new).along cell path = store.along cell path := by
  induction path generalizing cell with
  | nil => rfl
  | cons name rest ih =>
      have same : (store.put site (.text key) new).next cell name = store.next cell name := by
        refine next_put_other fun here alike => apart [] (congrArg some here) ?_
        rw [alike]
        exact List.cons_prefix_cons.mpr ⟨rfl, List.nil_prefix⟩
      rw [along_cons, along_cons, same]
      cases step : store.next cell name with
      | none => rfl
      | some inner =>
          refine ih fun begun leads within => apart (name :: begun) ?_ (List.cons_prefix_cons.mpr ⟨rfl, within⟩)
          rw [along_cons, step]
          exact leads

/-- What a path leads to now, it led to before, or the path goes on from the mapping by the name, and what was put
there leads on. -/
theorem along_put_cases (leads : (store.put site (.text key) new).along cell path = some inner) :
    store.along cell path = some inner ∨
      ∃ begun rest, path = begun ++ key :: rest ∧
        (store.put site (.text key) new).along cell begun = some (.object site) ∧ store.along new rest = some inner := by
  induction path generalizing cell with
  | nil => exact .inl leads
  | cons name more ih =>
      rw [along_cons] at leads
      obtain ⟨middle, step, further⟩ := Option.bind_eq_some_iff.mp leads
      rcases ih further with before | ⟨begun, rest, rfl, arrives, before⟩
      · rcases next_put_cases step with old | ⟨rfl, rfl, rfl⟩
        · left
          rw [along_cons, old]
          exact before
        · exact .inr ⟨[], more, rfl, rfl, before⟩
      · refine .inr ⟨name :: begun, rest, rfl, ?_, before⟩
        rw [along_cons, step]
        exact arrives

/-- Names lead to the same part in a document and in the store. -/
theorem Stands.along {document : Document} (stands : store.Stands document) (path : List String) :
    store.along document.cell path = (document.reach (path.map .text)).map Document.cell :=
  stands.walk (path.map .text)

end Store

end ChipEight
