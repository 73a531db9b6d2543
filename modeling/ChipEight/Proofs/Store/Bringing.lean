/-
This file shows that a document in which no object stands in two places comes into a store as it is, with all
of its objects at new sites.
-/

import ChipEight.Proofs.Store.Standing

namespace ChipEight

/-- What comes into a store with a document: it says the same there, and only new sites are its marks. -/
structure Store.Placed (store after : Store) (document placed : Document) : Prop where
  stands : after.Stands placed
  told : placed.value = document.value
  single : placed.IsSingle
  new : ∀ site ∈ placed.marks, store.newSite ≤ site
  kept : ∀ site object, store.object? site = some object → after.object? site = some object

namespace Store.Placed

variable {store after : Store} {document placed other : Document}

theorem stay (comes : Placed store after document placed) (stands : store.Stands other) : after.Stands other :=
  stands.kept fun mark _ => comes.kept mark

theorem apart (comes : Placed store after document placed) (stands : store.Stands other) :
    ∀ mark ∈ placed.marks, mark ∉ other.marks :=
  fun mark new known => absurd (stands.lt mark known) (Nat.not_lt.mpr (comes.new mark new))

end Store.Placed

namespace Bringing

variable {before middle after : Bringing} {marks others sites more : List Nat}

/-- New objects come at these sites, and only these marks become known. -/
structure Brought (before after : Bringing) (marks sites : List Nat) : Prop where
  single : sites.Nodup
  new : ∀ site ∈ sites, before.store.newSite ≤ site ∧ site < after.store.newSite
  kept : ∀ site object, before.store.object? site = some object → after.store.object? site = some object
  grows : before.store.newSite ≤ after.store.newSite
  known : ∀ mark, mark ∉ marks → after.known.lookup mark = before.known.lookup mark

theorem Brought.refl (bringing : Bringing) : Brought bringing bringing [] [] where
  single := List.nodup_nil
  new := List.forall_mem_nil _
  kept _ _ found := found
  grows := Nat.le_refl _
  known _ _ := rfl

theorem Brought.trans (first : Brought before middle marks sites) (second : Brought middle after others more) :
    Brought before after (marks ++ others) (sites ++ more) where
  single := by
    refine List.nodup_append.mpr ⟨first.single, second.single, fun site here other there => ?_⟩
    have below := (first.new site here).2
    have above := (second.new other there).1
    omega
  new site member := by
    have grows := first.grows
    have further := second.grows
    rcases List.mem_append.mp member with here | there
    · have bounds := first.new site here
      omega
    · have bounds := second.new site there
      omega
  kept site object found := second.kept site object (first.kept site object found)
  grows := Nat.le_trans first.grows second.grows
  known mark unknown := by
    rw [List.mem_append, not_or] at unknown
    rw [second.known mark unknown.2, first.known mark unknown.1]

/-- An object is added behind its parts. -/
theorem Brought.add (brought : Brought before after marks sites) (mark : Option Nat) (object : Object) :
    Brought before (after.add mark object).1 (mark.toList ++ marks) (after.store.newSite :: sites) where
  single := List.nodup_cons.mpr
    ⟨fun member => absurd (brought.new _ member).2 (Nat.lt_irrefl _), brought.single⟩
  new site member := by
    change _ ∧ site < (after.store.add object).newSite
    rw [Store.newSite_add]
    rcases List.mem_cons.mp member with rfl | inside
    · exact ⟨brought.grows, Nat.lt_succ_self _⟩
    · have bounds := brought.new site inside
      omega
  kept site other found := Store.object?_add (brought.kept site other found) object
  grows := by
    change _ ≤ (after.store.add object).newSite
    rw [Store.newSite_add]
    exact Nat.le_succ_of_le brought.grows
  known other unknown := by
    rw [List.mem_append, not_or] at unknown
    rw [← brought.known other unknown.2]
    cases mark with
    | none => rfl
    | some number =>
        have different : (other == number) = false :=
          beq_eq_false_iff_ne.mpr fun same => unknown.1 (List.mem_singleton.mpr same)
        change List.lookup other ((number, _) :: after.known) = _
        rw [List.lookup_cons, different]

/-- Marks that are not known lead to no site. -/
theorem site?_new {bringing : Bringing} {mark : Option Nat}
    (new : ∀ number ∈ mark.toList, bringing.known.lookup number = none) : bringing.site? mark = none := by
  cases mark with
  | none => rfl
  | some number => exact new number List.mem_cons_self

mutual
/-- A document of new marks comes with all of its objects. -/
theorem bring_brought (bringing : Bringing) (document : Document) (single : document.marks.Nodup)
    (new : ∀ mark ∈ document.marks, bringing.known.lookup mark = none) :
    ∃ placed : Document, (bringing.bring document).2 = placed.cell ∧ placed.value = document.value ∧
      (bringing.bring document).1.store.Stands placed ∧
      Brought bringing (bringing.bring document).1 document.marks placed.marks := by
  match document with
  | .scalar key => exact ⟨.scalar key, rfl, rfl, .scalar key, .refl bringing⟩
  | .list mark items =>
      obtain ⟨outer, inner⟩ := List.forall_mem_append.mp new
      obtain ⟨placed, cells, told, stands, brought⟩ :=
        bringItems_brought bringing items (List.nodup_append.mp single).2.1 inner
      rw [bring, site?_new outer]
      dsimp only
      rw [cells]
      refine ⟨.list (some _) placed, rfl, ?_, ?_, brought.add mark _⟩
      · rw [Document.value, Document.value, told]
      · exact .list (Store.object?_add_new _ _) fun item member => (stands item member).add _
  | .mapping mark entries =>
      obtain ⟨outer, inner⟩ := List.forall_mem_append.mp new
      obtain ⟨placed, cells, told, stands, brought⟩ :=
        bringEntries_brought bringing entries (List.nodup_append.mp single).2.1 inner
      rw [bring, site?_new outer]
      dsimp only
      rw [cells]
      refine ⟨.mapping (some _) placed, rfl, ?_, ?_, brought.add mark _⟩
      · rw [Document.value, Document.value, told]
      · exact .mapping (Store.object?_add_new _ _) fun entry member => (stands entry member).add _

theorem bringItems_brought (bringing : Bringing) (items : List Document) (single : (Document.itemMarks items).Nodup)
    (new : ∀ mark ∈ Document.itemMarks items, bringing.known.lookup mark = none) :
    ∃ placed : List Document, (bringing.bringItems items).2 = placed.map Document.cell ∧
      Document.itemValues placed = Document.itemValues items ∧
      (∀ item ∈ placed, (bringing.bringItems items).1.store.Stands item) ∧
      Brought bringing (bringing.bringItems items).1 (Document.itemMarks items) (Document.itemMarks placed) := by
  match items with
  | [] => exact ⟨[], rfl, rfl, List.forall_mem_nil _, .refl bringing⟩
  | item :: rest =>
      obtain ⟨here, behind, apart⟩ := List.nodup_append.mp single
      obtain ⟨first, others⟩ := List.forall_mem_append.mp new
      obtain ⟨placed, cell, told, stands, brought⟩ := bring_brought bringing item here first
      obtain ⟨more, cells, tell, stand, further⟩ := bringItems_brought (bringing.bring item).1 rest behind
        fun mark member => by
          rw [brought.known mark fun inside => apart mark inside mark member rfl]
          exact others mark member
      refine ⟨placed :: more, ?_, ?_, ?_, brought.trans further⟩
      · rw [bringItems, List.map_cons, ← cell, ← cells]
      · rw [Document.itemValues, Document.itemValues, told, tell]
      · refine List.forall_mem_cons.mpr ⟨stands.kept fun mark _ => further.kept mark, stand⟩

theorem bringEntries_brought (bringing : Bringing) (entries : List (Key × Document))
    (single : (Document.entryMarks entries).Nodup)
    (new : ∀ mark ∈ Document.entryMarks entries, bringing.known.lookup mark = none) :
    ∃ placed : List (Key × Document),
      (bringing.bringEntries entries).2 = Entries.mapValues Document.cell placed ∧
      Document.entryValues placed = Document.entryValues entries ∧
      (∀ entry ∈ placed, (bringing.bringEntries entries).1.store.Stands entry.2) ∧
      Brought bringing (bringing.bringEntries entries).1 (Document.entryMarks entries)
        (Document.entryMarks placed) := by
  match entries with
  | [] => exact ⟨[], rfl, rfl, List.forall_mem_nil _, .refl bringing⟩
  | (key, part) :: rest =>
      obtain ⟨here, behind, apart⟩ := List.nodup_append.mp single
      obtain ⟨first, others⟩ := List.forall_mem_append.mp new
      obtain ⟨placed, cell, told, stands, brought⟩ := bring_brought bringing part here first
      obtain ⟨more, cells, tell, stand, further⟩ := bringEntries_brought (bringing.bring part).1 rest behind
        fun mark member => by
          rw [brought.known mark fun inside => apart mark inside mark member rfl]
          exact others mark member
      refine ⟨(key, placed) :: more, ?_, ?_, ?_, brought.trans further⟩
      · rw [bringEntries, Entries.mapValues, List.map_cons, ← cell]
        exact congrArg ((key, _) :: ·) cells
      · rw [Document.entryValues, Document.entryValues, told, tell]
      · exact List.forall_mem_cons.mpr ⟨stands.kept fun mark _ => further.kept mark, stand⟩
end

end Bringing

/-- A document in which no object stands in two places is in the store that it comes into. -/
theorem Store.bring_placed (store : Store) {document : Document} (single : document.IsSingle) :
    ∃ placed, (store.bring document).2 = placed.cell ∧ Placed store (store.bring document).1 document placed := by
  obtain ⟨placed, cell, told, stands, brought⟩ := Bringing.bring_brought ⟨store, []⟩ document single fun _ _ => rfl
  exact ⟨placed, cell, stands, told, brought.single, fun site member => (brought.new site member).1, brought.kept⟩

end ChipEight
