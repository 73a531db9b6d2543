/-
This file shows that a document in which nothing stands in two places is written as the value that it says: no
object of it gets a name, and then no mark is looked at.
-/

import ChipEight.Proofs.Store.Standing
import ChipEight.Yaml.Writer

namespace ChipEight.Yaml

/-! ### Sorting -/

section

variable {A B : Type}

theorem insertEntry_mapValues (change : A → B) (key : Key) (value : A) (entries : List (Key × A)) :
    insertEntry (key, change value) (Entries.mapValues change entries) =
      Entries.mapValues change (insertEntry (key, value) entries) := by
  induction entries with
  | nil => rfl
  | cons other rest ih =>
      change insertEntry (key, change value) ((other.1, change other.2) :: Entries.mapValues change rest) = _
      rw [insertEntry, insertEntry, ih]
      split <;> rfl

theorem sortedEntries_mapValues (change : A → B) (entries : List (Key × A)) :
    sortedEntries (Entries.mapValues change entries) = Entries.mapValues change (sortedEntries entries) := by
  have names : Entries.names (Entries.mapValues change entries) = Entries.names entries := by
    rw [Entries.names, Entries.mapValues, List.map_map]
    rfl
  have placed : (Entries.mapValues change entries).foldr insertEntry [] =
      Entries.mapValues change (entries.foldr insertEntry []) := by
    clear names
    induction entries with
    | nil => rfl
    | cons entry rest ih =>
        change insertEntry (entry.1, change entry.2) ((Entries.mapValues change rest).foldr insertEntry []) = _
        rw [ih, insertEntry_mapValues]
        rfl
  rw [sortedEntries, sortedEntries, names, placed]
  split <;> rfl

theorem insertEntry_perm (entry : Key × A) (entries : List (Key × A)) :
    (insertEntry entry entries).Perm (entry :: entries) := by
  induction entries with
  | nil => exact .refl _
  | cons other rest ih =>
      rw [insertEntry]
      split
      case isTrue => exact .refl _
      case isFalse => exact (ih.cons other).trans (.swap entry other rest)

theorem sortedEntries_perm (entries : List (Key × A)) : (sortedEntries entries).Perm entries := by
  have placed : (entries.foldr insertEntry []).Perm entries := by
    induction entries with
    | nil => exact .refl _
    | cons entry rest ih => exact (insertEntry_perm entry _).trans (ih.cons entry)
  unfold sortedEntries
  split
  case isTrue => exact placed
  case isFalse => exact .refl _

end

theorem sortedEntries_marks (entries : List (Key × Document)) :
    (Document.entryMarks (sortedEntries entries)).Perm (Document.entryMarks entries) := by
  rw [Document.entryMarks_eq, Document.entryMarks_eq]
  exact (sortedEntries_perm entries).flatMap_right _

mutual
theorem sorted_marks (document : Document) : (sorted document).marks.Perm document.marks := by
  cases document with
  | scalar key => exact .refl _
  | list mark items => exact (sortedItems_marks items).append_left mark.toList
  | mapping mark entries =>
      exact ((sortedEntries_marks (sortedParts entries)).trans (sortedParts_marks entries)).append_left mark.toList

theorem sortedItems_marks (items : List Document) :
    (Document.itemMarks (sortedItems items)).Perm (Document.itemMarks items) := by
  cases items with
  | nil => exact .refl _
  | cons item rest => exact (sorted_marks item).append (sortedItems_marks rest)

theorem sortedParts_marks (entries : List (Key × Document)) :
    (Document.entryMarks (sortedParts entries)).Perm (Document.entryMarks entries) := by
  cases entries with
  | nil => exact .refl _
  | cons entry rest => exact (sorted_marks entry.2).append (sortedParts_marks rest)
end

/-! ### Documents without marks -/

/-- The document without its marks. -/
def plain (document : Document) : Document :=
  .ofValue document.value

theorem ofEntries_entryValues (entries : List (Key × Document)) :
    Document.ofEntries (Document.entryValues entries) = Entries.mapValues plain entries := by
  induction entries with
  | nil => rfl
  | cons entry rest ih =>
      rw [Document.entryValues, Document.ofEntries, ih]
      rfl

theorem ofItems_itemValues (items : List Document) :
    Document.ofItems (Document.itemValues items) = items.map plain := by
  induction items with
  | nil => rfl
  | cons item rest ih =>
      rw [Document.itemValues, Document.ofItems, ih]
      rfl

theorem plain_scalar (key : Key) : plain (.scalar key) = .scalar key := by
  cases key <;> rfl

theorem plain_list (mark : Option Nat) (items : List Document) :
    plain (.list mark items) = .list none (items.map plain) :=
  congrArg (Document.list none) (ofItems_itemValues items)

theorem plain_mapping (mark : Option Nat) (entries : List (Key × Document)) :
    plain (.mapping mark entries) = .mapping none (Entries.mapValues plain entries) :=
  congrArg (Document.mapping none) (ofEntries_entryValues entries)

mutual
theorem sorted_plain (document : Document) : sorted (plain document) = plain (sorted document) := by
  cases document with
  | scalar key =>
      rw [sorted, plain_scalar, sorted]
  | list mark items =>
      rw [sorted, plain_list, plain_list, sorted, sortedItems_plain items]
  | mapping mark entries =>
      rw [sorted, plain_mapping, plain_mapping, sorted, sortedParts_plain entries, sortedEntries_mapValues]

theorem sortedItems_plain (items : List Document) : sortedItems (items.map plain) = (sortedItems items).map plain := by
  cases items with
  | nil => rfl
  | cons item rest =>
      rw [List.map_cons, sortedItems, sortedItems, sorted_plain item, sortedItems_plain rest, List.map_cons]

theorem sortedParts_plain (entries : List (Key × Document)) :
    sortedParts (Entries.mapValues plain entries) = Entries.mapValues plain (sortedParts entries) := by
  cases entries with
  | nil => rfl
  | cons entry rest =>
      change sortedParts ((entry.1, plain entry.2) :: Entries.mapValues plain rest) = _
      rw [sortedParts, sortedParts, sorted_plain entry.2, sortedParts_plain rest]
      rfl
end

/-! ### Naming -/

namespace Naming

variable {naming later last : Naming} {first second : List Nat}

/-- The marks come once each, and none of them was met before. -/
structure Fresh (naming : Naming) (marks : List Nat) : Prop where
  single : marks.Nodup
  new : ∀ number ∈ marks, number ∉ naming.met

/-- No mark is named on the way, and only the given ones are met. -/
structure Passes (naming later : Naming) (marks : List Nat) : Prop where
  named : later.named = naming.named
  met : ∀ number ∈ later.met, number ∈ marks ∨ number ∈ naming.met

theorem Passes.refl (naming : Naming) : Passes naming naming [] :=
  ⟨rfl, fun _ member => .inr member⟩

theorem Passes.trans (start : Passes naming later first) (rest : Passes later last second) :
    Passes naming last (first ++ second) := by
  refine ⟨rest.named.trans start.named, fun number member => ?_⟩
  rcases rest.met number member with inside | before
  · exact .inl (List.mem_append_right _ inside)
  · exact (start.met number before).imp_left (List.mem_append_left _)

theorem Fresh.start (fresh : Fresh naming (first ++ second)) : Fresh naming first :=
  ⟨(List.nodup_append.mp fresh.single).1, fun number member => fresh.new number (List.mem_append_left _ member)⟩

/-- Marks that come later are as fresh after others are passed. -/
theorem Fresh.rest (fresh : Fresh naming (first ++ second)) (passes : Passes naming later first) :
    Fresh later second := by
  obtain ⟨-, single, apart⟩ := List.nodup_append.mp fresh.single
  refine ⟨single, fun number member known => ?_⟩
  rcases passes.met number known with here | before
  · exact apart number here number member rfl
  · exact fresh.new number (List.mem_append_right _ member) before

theorem Fresh.isMet {mark : Option Nat} (fresh : Fresh naming mark.toList) : naming.isMet mark = false := by
  cases mark with
  | none => rfl
  | some number => simpa [Naming.isMet] using fresh.new number List.mem_cons_self

theorem passes_meets (naming : Naming) (mark : Option Nat) : Passes naming (naming.meets mark) mark.toList :=
  ⟨rfl, fun _ member => List.mem_append.mp member⟩

mutual
/-- Fresh marks are passed. -/
theorem visit_fresh (naming : Naming) (document : Document) (fresh : Fresh naming document.marks) :
    Passes naming (naming.visit document) document.marks := by
  cases document with
  | scalar key => exact .refl naming
  | list mark items =>
      rw [visit, fresh.start.isMet]
      have meets := passes_meets naming mark
      exact meets.trans (visitItems_fresh (naming.meets mark) items (fresh.rest meets))
  | mapping mark entries =>
      rw [visit, fresh.start.isMet]
      have meets := passes_meets naming mark
      exact meets.trans (visitEntries_fresh (naming.meets mark) entries (fresh.rest meets))

theorem visitItems_fresh (naming : Naming) (items : List Document) (fresh : Fresh naming (Document.itemMarks items)) :
    Passes naming (naming.visitItems items) (Document.itemMarks items) := by
  cases items with
  | nil => exact .refl naming
  | cons item rest =>
      have here := visit_fresh naming item fresh.start
      exact here.trans (visitItems_fresh (naming.visit item) rest (fresh.rest here))

theorem visitEntries_fresh (naming : Naming) (entries : List (Key × Document))
    (fresh : Fresh naming (Document.entryMarks entries)) :
    Passes naming (naming.visitEntries entries) (Document.entryMarks entries) := by
  cases entries with
  | nil => exact .refl naming
  | cons entry rest =>
      have here := visit_fresh naming entry.2 fresh.start
      exact here.trans (visitEntries_fresh (naming.visit entry.2) rest (fresh.rest here))
end

end Naming

/-! ### Writing -/

/-- Where there are no names, none is written. -/
theorem refer_unnamed (mark : Option Nat) (written : Written) : refer [] mark written = ⟨written, false, false⟩ := by
  cases mark <;> rfl

mutual
theorem writeDocument_plain (indent : Nat) (setting : Setting) (written : Written) (document : Document) :
    writeDocument [] indent setting written (plain document) = writeDocument [] indent setting written document := by
  cases document with
  | scalar key => rw [plain_scalar]
  | list mark items =>
      rw [plain_list, writeDocument, writeDocument, refer_unnamed, refer_unnamed, List.isEmpty_map]
      simp only [writeItems_plain]
  | mapping mark entries =>
      have empty : (Entries.mapValues plain entries).isEmpty = entries.isEmpty := List.isEmpty_map
      rw [plain_mapping, writeDocument, writeDocument, refer_unnamed, refer_unnamed, empty]
      simp only [writeEntries_plain]

theorem writeItems_plain (indent : Nat) (onLine : Bool) (written : Written) (items : List Document) :
    writeItems [] indent onLine written (items.map plain) = writeItems [] indent onLine written items := by
  cases items with
  | nil => rfl
  | cons item rest =>
      rw [List.map_cons, writeItems, writeItems]
      simp only [writeDocument_plain, writeItems_plain]

theorem writeEntries_plain (indent : Nat) (onLine : Bool) (written : Written) (entries : List (Key × Document)) :
    writeEntries [] indent onLine written (Entries.mapValues plain entries) =
      writeEntries [] indent onLine written entries := by
  cases entries with
  | nil => rfl
  | cons entry rest =>
      change writeEntries [] indent onLine written ((entry.1, plain entry.2) :: Entries.mapValues plain rest) = _
      rw [writeEntries, writeEntries]
      simp only [writeDocument_plain, writeEntries_plain]
end

end ChipEight.Yaml
