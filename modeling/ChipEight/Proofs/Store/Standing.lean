/-
This file says when a document is in a store. Its marks are then the sites of its objects; so if no mark is
in it twice, no object of it stands in two places, and what is done to objects at other sites does not show
in it.
-/

import ChipEight.Proofs.Value.Alike
import ChipEight.Proofs.Value.Document
import ChipEight.Store
import Mathlib.Data.List.Pairwise
import Mathlib.Data.List.Perm.Subperm

namespace ChipEight

/-! ### Marks -/

namespace Document

variable {mark : Option Nat} {entries : List (Key × Document)} {key : Key} {inner : Document} {site : Nat}

/-- The cell of a document whose marks are sites. -/
def cell : Document → Cell
  | .scalar key => .scalar key
  | .list mark _ => .object (mark.getD 0)
  | .mapping mark _ => .object (mark.getD 0)

def entries? : Document → Option (List (Key × Document))
  | .mapping _ entries => some entries
  | _ => none

/-- The part that keys lead to one after another. -/
def reach (document : Document) : List Key → Option Document
  | [] => some document
  | key :: rest =>
      (document.entries?.bind fun entries => Entries.find? entries key).bind fun inner => inner.reach rest

theorem itemMarks_eq (items : List Document) : itemMarks items = items.flatMap marks := by
  induction items with
  | nil => rfl
  | cons item rest ih => rw [itemMarks, ih, List.flatMap_cons]

theorem entryMarks_eq (entries : List (Key × Document)) :
    entryMarks entries = entries.flatMap fun entry => entry.2.marks := by
  induction entries with
  | nil => rfl
  | cons entry rest ih => rw [entryMarks, ih, List.flatMap_cons]

theorem entryMarks_append (first second : List (Key × Document)) :
    entryMarks (first ++ second) = entryMarks first ++ entryMarks second := by
  rw [entryMarks_eq, entryMarks_eq, entryMarks_eq, List.flatMap_append]

@[simp] theorem mem_marks_mapping {other : Nat} :
    other ∈ (mapping (some site) entries).marks ↔ other = site ∨ other ∈ entryMarks entries :=
  List.mem_cons

@[simp] theorem mem_entryMarks_cons {entry : Key × Document} {other : Nat} :
    other ∈ entryMarks (entry :: entries) ↔ other ∈ entry.2.marks ∨ other ∈ entryMarks entries :=
  List.mem_append

theorem part_marks (member : (key, inner) ∈ entries) : inner.marks.Sublist (entryMarks entries) := by
  rw [entryMarks_eq, List.flatMap_def]
  exact List.sublist_flatten_of_mem (List.mem_map_of_mem member)

theorem IsSingle.part (single : (mapping mark entries).IsSingle) (member : (key, inner) ∈ entries) :
    inner.IsSingle :=
  ((List.nodup_append.mp single).2.1).sublist (part_marks member)

theorem IsSingle.apart (single : (mapping (some site) entries).IsSingle) : site ∉ entryMarks entries :=
  (List.nodup_cons.mp single).1

theorem IsSingle.disjoint (single : (mapping mark entries).IsSingle) {one two : Key × Document}
    (here : one ∈ entries) (there : two ∈ entries) (different : one ≠ two) :
    ∀ other ∈ one.2.marks, other ∉ two.2.marks := by
  have whole := (List.nodup_append.mp single).2.1
  rw [entryMarks_eq] at whole
  have both : Std.Symm (Function.onFun List.Disjoint fun entry : Key × Document => entry.2.marks) :=
    ⟨fun _ _ apart => List.disjoint_symm apart⟩
  have apart := (List.nodup_flatMap.mp whole).2.forall here there different
  exact fun other first second => apart first second

/-- After something takes the place of a part, all else was there, and has nothing in common with that part. -/
theorem IsSingle.aside (single : (mapping mark entries).IsSingle) (found : Entries.find? entries key = some inner)
    (new : Document) :
    ∀ entry ∈ Entries.put entries key new,
      entry.2 = new ∨ entry ∈ entries ∧ ∀ other ∈ entry.2.marks, other ∉ inner.marks := by
  obtain ⟨before, name, behind, whole, puts⟩ := Entries.put_split found new
  have disjoint := (List.nodup_append.mp single).2.1
  rw [whole, entryMarks_append, entryMarks, List.nodup_append, List.nodup_append] at disjoint
  intro entry member
  rw [puts] at member
  rw [whole]
  rcases List.mem_append.mp member with first | rest
  · refine .inr ⟨List.mem_append_left _ first, fun other known inside => ?_⟩
    exact disjoint.2.2 other ((part_marks first).subset known) other (List.mem_append_left _ inside) rfl
  · rcases List.mem_cons.mp rest with rfl | last
    · exact .inl rfl
    · refine .inr ⟨List.mem_append_right _ (List.mem_cons_of_mem _ last), fun other known inside => ?_⟩
      exact disjoint.2.1.2.2 other inside other ((part_marks last).subset known) rfl

/-- What is put has its marks in the place of those that were under its key. -/
theorem marks_put (entries : List (Key × Document)) (key : Key) (inner : Document) :
    ∃ before old behind, entryMarks entries = before ++ (old ++ behind) ∧
      entryMarks (Entries.put entries key inner) = before ++ (inner.marks ++ behind) ∧
      old = ((Entries.find? entries key).map marks).getD [] := by
  induction entries with
  | nil => exact ⟨[], [], [], rfl, rfl, rfl⟩
  | cons entry rest ih =>
      obtain ⟨present, held⟩ := entry
      rw [Entries.put, Entries.find?]
      split
      · exact ⟨[], held.marks, entryMarks rest, rfl, rfl, rfl⟩
      · obtain ⟨before, old, behind, whole, puts, same⟩ := ih
        refine ⟨held.marks ++ before, old, behind, ?_, ?_, same⟩
        · rw [entryMarks, whole, List.append_assoc]
        · rw [entryMarks, puts, List.append_assoc]

/-- What is put may have marks of what was under its key, and else only new ones. -/
theorem IsSingle.put (single : (mapping mark entries).IsSingle) (new : inner.IsSingle)
    (apart : ∀ other ∈ inner.marks, other ∈ (mapping mark entries).marks →
      ∃ held, Entries.find? entries key = some held ∧ other ∈ held.marks) :
    (mapping mark (Entries.put entries key inner)).IsSingle := by
  obtain ⟨before, old, behind, whole, puts, same⟩ := marks_put entries key inner
  have within : ∀ other ∈ inner.marks, other ∈ (mapping mark entries).marks → other ∈ old := by
    intro other member known
    obtain ⟨held, found, inside⟩ := apart other member known
    rwa [same, found]
  unfold IsSingle at single new ⊢
  rw [marks, whole] at single within
  rw [marks, puts]
  simp only [List.nodup_append, List.mem_append] at single within ⊢
  grind

theorem mem_marks_put {other : Nat} (member : other ∈ entryMarks (Entries.put entries key inner)) :
    other ∈ entryMarks entries ∨ other ∈ inner.marks := by
  obtain ⟨before, old, behind, whole, puts, -⟩ := marks_put entries key inner
  rw [puts] at member
  rw [whole]
  simp only [List.mem_append] at member ⊢
  grind

theorem reach_marks {document : Document} {path : List Key} (found : document.reach path = some inner) :
    inner.marks.Sublist document.marks := by
  induction path generalizing document with
  | nil =>
      cases found
      exact List.Sublist.refl _
  | cons key rest ih =>
      obtain ⟨next, here, there⟩ := Option.bind_eq_some_iff.mp found
      obtain ⟨entries, mapping, held⟩ := Option.bind_eq_some_iff.mp here
      cases document with
      | mapping mark entries =>
          cases mapping
          obtain ⟨present, member⟩ := Entries.find?_mem held
          exact (ih there).trans ((part_marks member).trans (List.sublist_append_right _ _))
      | _ => cases mapping

end Document

namespace Store

variable {store after : Store} {site other : Nat} {object : Object} {key : Key} {cell : Cell}

/-! ### Objects at their sites -/

theorem site_lt (found : store.object? site = some object) : site < store.newSite :=
  (List.getElem?_eq_some_iff.mp found).1

theorem object?_add (found : store.object? site = some object) (more : Object) :
    (store.add more).object? site = some object :=
  (List.getElem?_append_left (site_lt found)).trans found

theorem object?_add_new (store : Store) (object : Object) : (store.add object).object? store.newSite = some object :=
  List.getElem?_concat_length

theorem newSite_add (store : Store) (object : Object) : (store.add object).newSite = store.newSite + 1 :=
  List.length_append

theorem entries_of_object? {entries : List (Key × Cell)} (found : store.object? site = some (.mapping entries)) :
    store.entries site = entries := by
  rw [Store.entries, found]

theorem isMapping_of_object? {entries : List (Key × Cell)} (found : store.object? site = some (.mapping entries)) :
    store.isMapping site = true := by
  unfold isMapping
  rw [found]

theorem newSite_put (store : Store) (site : Nat) (key : Key) (cell : Cell) :
    (store.put site key cell).newSite = store.newSite := by
  unfold put newSite
  split
  · exact List.length_set
  · rfl

theorem object?_put_other (different : other ≠ site) : (store.put site key cell).object? other = store.object? other := by
  unfold put
  split
  · exact List.getElem?_set_ne different.symm
  · rfl

theorem object?_put_same {entries : List (Key × Cell)} (found : store.object? site = some (.mapping entries)) :
    (store.put site key cell).object? site = some (.mapping (Entries.put entries key cell)) := by
  unfold put
  rw [found]
  exact List.getElem?_set_self (site_lt found)

theorem unfold_list {items : List Cell} (found : store.object? site = some (.list items)) (room : Nat) :
    store.unfold (room + 1) (.object site) = .list (items.map (store.unfold room)) := by
  rw [unfold, found]

theorem unfold_mapping {entries : List (Key × Cell)} (found : store.object? site = some (.mapping entries))
    (room : Nat) :
    store.unfold (room + 1) (.object site) = .dict (Entries.mapValues (store.unfold room) entries) := by
  rw [unfold, found]
  rfl

theorem unfoldDocument_list {items : List Cell} (found : store.object? site = some (.list items)) (room : Nat) :
    store.unfoldDocument (room + 1) (.object site) = .list (some site) (items.map (store.unfoldDocument room)) := by
  rw [unfoldDocument, found]

theorem unfoldDocument_mapping {entries : List (Key × Cell)} (found : store.object? site = some (.mapping entries))
    (room : Nat) :
    store.unfoldDocument (room + 1) (.object site) =
      .mapping (some site) (Entries.mapValues (store.unfoldDocument room) entries) := by
  rw [unfoldDocument, found]
  rfl

theorem mapping?_of_object? {entries : List (Key × Cell)} (found : store.object? site = some (.mapping entries)) :
    store.mapping? (.object site) = some site :=
  if_pos (isMapping_of_object? found)

theorem mapping?_of_list {items : List Cell} (found : store.object? site = some (.list items)) :
    store.mapping? (.object site) = none := by
  refine if_neg ?_
  unfold isMapping
  rw [found]
  exact Bool.false_ne_true

/-- The document of a cell says what the cell looks like. -/
theorem document_value (store : Store) (cell : Cell) : (store.document cell).value = store.look cell := by
  unfold document look
  generalize store.objects.length = room
  induction room generalizing cell with
  | zero => cases cell <;> rfl
  | succ room ih =>
      cases cell with
      | scalar key => rfl
      | object site =>
          rw [unfoldDocument, unfold]
          cases store.object? site with
          | none => rfl
          | some object =>
              cases object with
              | list items =>
                  change Value.list (Document.itemValues _) = _
                  rw [Document.itemValues_eq, List.map_map]
                  exact congrArg Value.list (List.map_congr_left fun item _ => ih item)
              | mapping entries =>
                  change Value.dict (Document.entryValues _) = _
                  rw [Document.entryValues_eq, Entries.mapValues, List.map_map]
                  exact congrArg Value.dict (List.map_congr_left fun entry _ => congrArg (entry.1, ·) (ih entry.2))

/-! ### Documents in a store -/

/-- A document is in a store, each of its objects at the site that is its mark. -/
inductive Stands (store : Store) : Document → Prop where
  | scalar (key : Key) : Stands store (.scalar key)
  | list {site : Nat} {items : List Document}
      (here : store.object? site = some (.list (items.map Document.cell)))
      (parts : ∀ item ∈ items, Stands store item) : Stands store (.list (some site) items)
  | mapping {site : Nat} {entries : List (Key × Document)}
      (here : store.object? site = some (.mapping (Entries.mapValues Document.cell entries)))
      (parts : ∀ entry ∈ entries, Stands store entry.2) : Stands store (.mapping (some site) entries)

variable {document inner : Document} {entries : List (Key × Document)}

namespace Stands

theorem here (stands : store.Stands (.mapping (some site) entries)) :
    store.object? site = some (.mapping (Entries.mapValues Document.cell entries)) := by
  cases stands with
  | mapping here parts => exact here

theorem part (stands : store.Stands (.mapping (some site) entries)) (member : (key, inner) ∈ entries) :
    store.Stands inner := by
  cases stands with
  | mapping here parts => exact parts _ member

/-- All marks are sites of the store. -/
theorem lt (stands : store.Stands document) : ∀ mark ∈ document.marks, mark < store.newSite := by
  induction stands with
  | scalar key => exact List.forall_mem_nil _
  | list here parts ih =>
      refine List.forall_mem_cons.mpr ⟨site_lt here, fun mark member => ?_⟩
      change mark ∈ Document.itemMarks _ at member
      rw [Document.itemMarks_eq] at member
      obtain ⟨item, within, inside⟩ := List.mem_flatMap.mp member
      exact ih item within mark inside
  | mapping here parts ih =>
      refine List.forall_mem_cons.mpr ⟨site_lt here, fun mark member => ?_⟩
      change mark ∈ Document.entryMarks _ at member
      rw [Document.entryMarks_eq] at member
      obtain ⟨entry, within, inside⟩ := List.mem_flatMap.mp member
      exact ih entry within mark inside

/-- A document stays in a store while its objects stay as they are. -/
theorem kept (stands : store.Stands document)
    (same : ∀ mark ∈ document.marks, ∀ object, store.object? mark = some object → after.object? mark = some object) :
    after.Stands document := by
  induction stands with
  | scalar key => exact .scalar key
  | @list site items here parts ih =>
      refine .list (same site List.mem_cons_self _ here) fun item member => ?_
      refine ih item member fun mark inside => same mark (List.mem_append_right _ ?_)
      rw [Document.itemMarks_eq]
      exact List.mem_flatMap_of_mem member inside
  | @mapping site entries here parts ih =>
      refine .mapping (same site List.mem_cons_self _ here) fun entry member => ?_
      exact ih entry member fun mark inside =>
        same mark (List.mem_append_right _ ((Document.part_marks member).subset inside))

theorem add (stands : store.Stands document) (object : Object) : (store.add object).Stands document :=
  stands.kept fun _ _ _ found => object?_add found object

theorem put_apart (stands : store.Stands document) (apart : site ∉ document.marks) :
    (store.put site key cell).Stands document := by
  refine stands.kept fun mark member object found => ?_
  have different : mark ≠ site := by
    rintro rfl
    exact apart member
  rwa [object?_put_other different]

/-- A document that is put under a key of a mapping is in it from then on. -/
theorem put (stands : store.Stands (.mapping (some site) entries)) (single : site ∉ Document.entryMarks entries)
    (new : store.Stands inner) (apart : site ∉ inner.marks) :
    (store.put site key inner.cell).Stands (.mapping (some site) (Entries.put entries key inner)) := by
  refine .mapping ?_ fun entry member => ?_
  · rw [object?_put_same stands.here, Entries.put_mapValues]
  · rcases Entries.mem_of_put member with held | same
    · exact (stands.part held).put_apart fun inside => single ((Document.part_marks held).subset inside)
    · rw [same]
      exact new.put_apart apart

/-! A document is what its cell shows -/

theorem unfoldDocument (stands : store.Stands document) {room : Nat} (roomy : document.marks.length ≤ room) :
    store.unfoldDocument room document.cell = document := by
  induction stands generalizing room with
  | scalar key => rw [Document.cell, Store.unfoldDocument]
  | @list site items here parts ih =>
      change (site :: Document.itemMarks items).length ≤ room at roomy
      obtain ⟨less, rfl⟩ := Nat.exists_eq_add_of_lt (Nat.lt_of_lt_of_le (Nat.succ_pos _) roomy)
      change store.unfoldDocument (0 + less + 1) (.object site) = _
      rw [unfoldDocument_list here, List.map_map]
      refine congrArg (Document.list (some site)) ((List.map_congr_left fun item member => ?_).trans (List.map_id items))
      refine ih item member ?_
      have within := List.sublist_flatten_of_mem (List.mem_map_of_mem (f := Document.marks) member)
      rw [List.length_cons, Document.itemMarks_eq, List.flatMap_def] at roomy
      have shorter := within.length_le
      omega
  | @mapping site entries here parts ih =>
      change (site :: Document.entryMarks entries).length ≤ room at roomy
      obtain ⟨less, rfl⟩ := Nat.exists_eq_add_of_lt (Nat.lt_of_lt_of_le (Nat.succ_pos _) roomy)
      change store.unfoldDocument (0 + less + 1) (.object site) = _
      rw [unfoldDocument_mapping here]
      unfold Entries.mapValues
      rw [List.map_map]
      refine congrArg (Document.mapping (some site))
        ((List.map_congr_left fun entry member => ?_).trans (List.map_id entries))
      refine congrArg (entry.1, ·) (ih entry member ?_)
      have shorter := (Document.part_marks member).length_le
      rw [List.length_cons] at roomy
      omega

theorem shown (stands : store.Stands document) (single : document.IsSingle) :
    store.document document.cell = document := by
  refine stands.unfoldDocument ?_
  -- Each object that stands in one place has a site of its own.
  have within : document.marks ⊆ List.range store.newSite := fun mark member =>
    List.mem_range.mpr (stands.lt mark member)
  have shorter := (List.Nodup.subperm single within).length_le
  rwa [List.length_range] at shorter

theorem look (stands : store.Stands document) (single : document.IsSingle) :
    store.look document.cell = document.value := by
  rw [← document_value, stands.shown single]

theorem mapping? (stands : store.Stands document) :
    store.mapping? document.cell = document.entries?.map fun _ => (document.marks.head?).getD 0 := by
  cases stands with
  | scalar key => rfl
  | list here parts => exact mapping?_of_list here
  | mapping here parts => exact mapping?_of_object? here

/-- A document is a mapping in the store, or nothing that has entries. -/
theorem mapping_cases (stands : store.Stands document) :
    (∃ site entries, document = .mapping (some site) entries ∧ store.mapping? document.cell = some site) ∨
      store.mapping? document.cell = none ∧ document.value.entries? = none := by
  have cell := stands.mapping?
  cases stands with
  | scalar key => exact .inr ⟨cell, by cases key <;> rfl⟩
  | list here parts => exact .inr ⟨cell, rfl⟩
  | mapping here parts => exact .inl ⟨_, _, rfl, cell⟩

theorem find? (stands : store.Stands (.mapping (some site) entries)) (key : Key) :
    store.find? site key = (Entries.find? entries key).map Document.cell := by
  unfold Store.find?
  rw [entries_of_object? stands.here, Entries.find?_mapValues]

theorem step (stands : store.Stands document) (key : Key) :
    ((store.mapping? document.cell).bind fun site => store.find? site key) =
      (document.entries?.bind fun entries => Entries.find? entries key).map Document.cell := by
  rw [stands.mapping?]
  cases stands with
  | scalar key => rfl
  | list here parts => rfl
  | mapping here parts => exact (Stands.mapping here parts).find? key

theorem under (stands : store.Stands document)
    (found : (document.entries?.bind fun entries => Entries.find? entries key) = some inner) :
    store.Stands inner := by
  obtain ⟨entries, mapping, held⟩ := Option.bind_eq_some_iff.mp found
  cases stands with
  | scalar key => cases mapping
  | list here parts => cases mapping
  | mapping here parts =>
      cases mapping
      obtain ⟨present, member⟩ := Entries.find?_mem held
      exact parts _ member

end Stands

theorem walk_cons (store : Store) (cell : Cell) (key : Key) (rest : List Key) :
    store.walk cell (key :: rest) =
      ((store.mapping? cell).bind fun site => store.find? site key).bind fun inner => store.walk inner rest := by
  rw [walk]
  cases (store.mapping? cell).bind fun site => store.find? site key <;> rfl

/-- Keys lead to the same part in a document and in the store. -/
theorem Stands.walk (stands : store.Stands document) (path : List Key) :
    store.walk document.cell path = (document.reach path).map Document.cell := by
  induction path generalizing document with
  | nil => rfl
  | cons key rest ih =>
      rw [walk_cons, stands.step, Document.reach]
      cases found : document.entries?.bind fun entries => Entries.find? entries key with
      | none => rfl
      | some inner => exact ih (stands.under found)

theorem Stands.reach (stands : store.Stands document) {path : List Key} (found : document.reach path = some inner) :
    store.Stands inner := by
  induction path generalizing document with
  | nil =>
      cases found
      exact stands
  | cons key rest ih =>
      obtain ⟨next, here, there⟩ := Option.bind_eq_some_iff.mp found
      exact ih (stands.under here) there

end Store

end ChipEight
