/-
This file follows a mapping in a store while its entries change. As long as no object of it stands in two
places, a change in one of its parts is a change of that part only.
-/

import ChipEight.Proofs.Store.Standing

namespace ChipEight.Store

open Document (entryMarks)

variable {store middle after : Store} {given more : List Nat} {site inner : Nat} {key : Key} {part : Document}
  {entries old new changed : List (Key × Document)}

/-- The mapping of a document has other entries. Marks come to it only from what is given to it or from new
objects, and objects apart from it and from what is given are as they were. -/
structure Turned (store after : Store) (given : List Nat) (site : Nat) (entries changed : List (Key × Document)) :
    Prop where
  stands : after.Stands (.mapping (some site) changed)
  single : (Document.mapping (some site) changed).IsSingle
  marks : ∀ mark ∈ entryMarks changed, mark ∈ entryMarks entries ∨ mark ∈ given ∨ store.newSite ≤ mark
  kept : ∀ other object, store.object? other = some object → other ≠ site → other ∉ entryMarks entries →
    other ∉ given → after.object? other = some object
  grows : store.newSite ≤ after.newSite

theorem Turned.refl (stands : store.Stands (.mapping (some site) entries))
    (single : (Document.mapping (some site) entries).IsSingle) : Turned store store [] site entries entries where
  stands := stands
  single := single
  marks _ member := .inl member
  kept _ _ found _ _ _ := found
  grows := Nat.le_refl _

theorem Turned.trans (first : Turned store middle given site entries old)
    (second : Turned middle after more site old changed) :
    Turned store after (given ++ more) site entries changed where
  stands := second.stands
  single := second.single
  marks mark member := by
    have grows := first.grows
    rcases second.marks mark member with known | given | new
    · rcases first.marks mark known with held | given | new
      · exact .inl held
      · exact .inr (.inl (List.mem_append_left _ given))
      · exact .inr (.inr new)
    · exact .inr (.inl (List.mem_append_right _ given))
    · exact .inr (.inr (Nat.le_trans grows new))
  kept other object found apart unheld ungiven := by
    rw [List.mem_append, not_or] at ungiven
    have still := first.kept other object found apart unheld ungiven.1
    refine second.kept other object still apart (fun member => ?_) ungiven.2
    rcases first.marks other member with held | given | new
    · exact unheld held
    · exact ungiven.1 given
    · exact absurd (site_lt found) (Nat.not_lt.mpr new)
  grows := Nat.le_trans first.grows second.grows

/-- More may be given than is used. -/
theorem Turned.mono (turned : Turned store after given site entries changed) (within : ∀ mark ∈ given, mark ∈ more) :
    Turned store after more site entries changed where
  stands := turned.stands
  single := turned.single
  marks mark member := (turned.marks mark member).imp_right (Or.imp_left (within mark))
  kept other object found different unheld ungiven :=
    turned.kept other object found different unheld (mt (within other) ungiven)
  grows := turned.grows

/-- Objects that were added before count as new, or as given. -/
theorem Turned.added {object : Object} (turned : Turned (store.add object) after given site entries changed)
    (new : ∀ mark ∈ given, mark ∈ more ∨ store.newSite ≤ mark) : Turned store after more site entries changed where
  stands := turned.stands
  single := turned.single
  marks mark member := by
    have grows := store.newSite_add object
    rcases turned.marks mark member with held | given | later
    · exact .inl held
    · exact .inr (new mark given)
    · exact .inr (.inr (by omega))
  kept other known found apart unheld ungiven := by
    refine turned.kept other known (object?_add found object) apart unheld fun member => ?_
    rcases new other member with given | later
    · exact ungiven given
    · exact absurd (site_lt found) (Nat.not_lt.mpr later)
  grows := by
    have grows := turned.grows
    rw [newSite_add] at grows
    omega

/-- A document that has nothing in common with a mapping is put into it. -/
theorem Turned.put (stands : store.Stands (.mapping (some site) entries))
    (single : (Document.mapping (some site) entries).IsSingle) (new : store.Stands part) (alone : part.IsSingle)
    (apart : ∀ mark ∈ part.marks, mark ≠ site ∧ mark ∉ entryMarks entries) (key : Key) :
    Turned store (store.put site key part.cell) part.marks site entries (Entries.put entries key part) where
  stands := stands.put single.apart new fun member => (apart site member).1 rfl
  single := single.put alone fun mark member known =>
    (List.mem_cons.mp known).elim (absurd · (apart mark member).1) (absurd · (apart mark member).2)
  marks mark member := (Document.mem_marks_put member).imp_right .inl
  kept other object found different _ _ := by
    rwa [object?_put_other different]
  grows := Nat.le_of_eq (newSite_put store site key part.cell).symm

/-- A new empty mapping is put into another one. -/
theorem Turned.created (stands : store.Stands (.mapping (some site) entries))
    (single : (Document.mapping (some site) entries).IsSingle) (key : Key) :
    Turned store ((store.add (.mapping [])).put site key (.object store.newSite)) [] site entries
      (Entries.put entries key (.mapping (some store.newSite) [])) := by
  have empty : (store.add (.mapping [])).Stands (.mapping (some store.newSite) []) :=
    .mapping (object?_add_new store _) (List.forall_mem_nil _)
  have turned := Turned.put (stands.add (.mapping [])) single empty (List.nodup_singleton _) (fun mark member => by
    have lower := stands.lt mark
    rw [List.mem_singleton.mp member] at lower ⊢
    exact ⟨fun same => Nat.lt_irrefl _ (lower (same ▸ List.mem_cons_self)),
      fun within => Nat.lt_irrefl _ (lower (List.mem_cons_of_mem _ within))⟩) key
  exact turned.added fun mark member => .inr (Nat.le_of_eq (List.mem_singleton.mp member).symm)

/-- What turns a mapping within another one turns that one. -/
theorem Turned.within (stands : store.Stands (.mapping (some site) entries))
    (single : (Document.mapping (some site) entries).IsSingle)
    (found : Entries.find? entries key = some (.mapping (some inner) old))
    (turned : Turned store after given inner old new)
    (apart : ∀ mark ∈ given, mark ≠ site ∧ mark ∉ entryMarks entries) :
    Turned store after given site entries (Entries.put entries key (.mapping (some inner) new)) := by
  obtain ⟨present, member⟩ := Entries.find?_mem found
  have held {mark : Nat} (known : mark = inner ∨ mark ∈ entryMarks old) : mark ∈ entryMarks entries :=
    (Document.part_marks member).subset (List.mem_cons.mpr known)
  have alone := single.apart
  -- What is inside the changed part was there, was given, or is new.
  have inside {mark : Nat} (known : mark = inner ∨ mark ∈ entryMarks new) :
      (mark = inner ∨ mark ∈ entryMarks old) ∨ mark ∈ given ∨ store.newSite ≤ mark :=
    known.elim (fun same => .inl (.inl same)) fun known => (turned.marks mark known).imp_left .inr
  have outer : site ≠ inner := fun same => alone (held (.inl same))
  have unknown : site ∉ entryMarks old := fun known => alone (held (.inr known))
  refine ⟨.mapping ?_ fun entry within => ?_, ?_, ?_, ?_, turned.grows⟩
  · rw [← Entries.put_mapValues]
    have same : Entries.find? (Entries.mapValues Document.cell entries) key = some (.object inner) := by
      rw [Entries.find?_mapValues, found]
      rfl
    change after.object? site = some (.mapping (Entries.put _ key (.object inner)))
    rw [Entries.put_found same]
    exact turned.kept site _ stands.here outer unknown fun member => (apart site member).1 rfl
  · rcases single.aside found _ entry within with same | ⟨listed, foreign⟩
    · rw [same]
      exact turned.stands
    · refine (stands.part listed).kept fun mark known object there => ?_
      have other := foreign mark known
      rw [Document.marks, Option.toList_some, List.singleton_append, List.mem_cons, not_or] at other
      refine turned.kept mark object there other.1 other.2 fun member => (apart mark member).2 ?_
      exact (Document.part_marks listed).subset known
  · refine single.put turned.single fun mark member known => ?_
    rcases inside (List.mem_cons.mp member) with held | given | later
    · exact ⟨_, found, List.mem_cons.mpr held⟩
    · exact absurd known fun known => (List.mem_cons.mp known).elim (apart mark given).1 (apart mark given).2
    · exact absurd (stands.lt mark known) (Nat.not_lt.mpr later)
  · intro mark known
    rcases Document.mem_marks_put known with known | known
    · exact .inl known
    · exact (inside (List.mem_cons.mp known)).imp_left held
  · intro other object there different unheld ungiven
    have foreign : other ≠ inner ∧ other ∉ entryMarks old :=
      ⟨fun same => unheld (held (.inl same)), fun known => unheld (held (.inr known))⟩
    exact turned.kept other object there foreign.1 foreign.2 ungiven

end ChipEight.Store
