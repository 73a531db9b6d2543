/-
This file is about stores in which nothing leads to an object that is not there, and about objects that come to
them. All that comes with a document comes so, and what was there before stays as it was.
-/

import ChipEight.Proofs.Store.Paths

namespace ChipEight

namespace Store

variable {store after : Store} {site other : Nat} {key name : String} {cell inner new : Cell} {object : Object}
  {path : List String}

/-! ### Stores without loose ends -/

/-- A scalar, or an object of the store. -/
def Holds (store : Store) : Cell → Prop
  | .scalar _ => True
  | .object site => site < store.newSite

/-- What stands in an object is allowed, and the keys of mappings are names that fit, each of them once. -/
inductive Fits (fits : String → Prop) (allowed : Cell → Prop) : Object → Prop where
  | list {items : List Cell} (held : ∀ cell ∈ items, allowed cell) : Fits fits allowed (.list items)
  | mapping {entries : List (Key × Cell)} (keys : (Entries.faces entries).Nodup)
      (named : ∀ entry ∈ entries, ∃ name, entry.1 = .text name ∧ fits name)
      (held : ∀ entry ∈ entries, allowed entry.2) : Fits fits allowed (.mapping entries)

variable {fits : String → Prop} {allowed wider : Cell → Prop}

theorem Fits.mono (known : Fits fits allowed object) (wide : ∀ cell, allowed cell → wider cell) :
    Fits fits wider object := by
  cases known with
  | list held => exact .list fun cell member => wide cell (held cell member)
  | mapping keys named held => exact .mapping keys named fun entry member => wide _ (held entry member)

/-- All objects fit, and nothing leads out of the store. -/
def Tidy (fits : String → Prop) (store : Store) : Prop :=
  ∀ site object, store.object? site = some object → Fits fits store.Holds object

theorem Holds.grows (held : store.Holds cell) (grows : store.newSite ≤ after.newSite) : after.Holds cell := by
  cases cell with
  | scalar => trivial
  | object site => exact Nat.lt_of_lt_of_le held grows

theorem Tidy.empty (fits : String → Prop) : Store.empty.Tidy fits :=
  fun _ _ found => nomatch found

theorem add_grows (store : Store) (object : Object) : store.newSite ≤ (store.add object).newSite := by
  rw [newSite_add]
  exact Nat.le_succ _

theorem object?_add_cases {present : Object} (found : (store.add object).object? site = some present) :
    store.object? site = some present ∨ site = store.newSite ∧ present = object := by
  rcases Nat.lt_trichotomy site store.newSite with below | rfl | above
  · exact .inl ((List.getElem?_append_left below).symm.trans found)
  · exact .inr ⟨rfl, Option.some.inj (found.symm.trans (object?_add_new store object))⟩
  · have bound := site_lt found
    rw [newSite_add] at bound
    omega

theorem Tidy.add (tidy : store.Tidy fits) (known : Fits fits store.Holds object) : (store.add object).Tidy fits := by
  intro site present found
  suffices old : Fits fits store.Holds present from old.mono fun _ held => held.grows (store.add_grows object)
  rcases object?_add_cases found with old | ⟨-, rfl⟩
  · exact tidy site present old
  · exact known

theorem Tidy.put (tidy : store.Tidy fits) (plain : fits key) (held : store.Holds new) :
    (store.put site (.text key) new).Tidy fits := by
  intro other present found
  suffices known : Fits fits store.Holds present from
    known.mono fun _ held => held.grows (Nat.le_of_eq (newSite_put store site (.text key) new).symm)
  by_cases same : other = site
  · subst same
    cases mapping : store.isMapping other with
    | false =>
        rw [put_of_isMapping mapping] at found
        exact tidy other present found
    | true =>
        obtain ⟨entries, here⟩ := isMapping_iff.mp mapping
        cases (object?_put_same here).symm.trans found
        cases tidy other _ here with
        | mapping keys named inside =>
            have before (present : Key) (old : Cell) (member : (present, old) ∈ entries) :
                (∃ name, present = .text name ∧ fits name) ∧ store.Holds old := ⟨named _ member, inside _ member⟩
            have all := Entries.forall_put before ⟨key, rfl, plain⟩ held
            exact .mapping (Entries.put_distinct keys) (fun entry member => (all entry member).1)
              fun entry member => (all entry member).2
  · rw [object?_put_other same] at found
    exact tidy other present found

theorem Tidy.next (tidy : store.Tidy fits) (leads : store.next cell name = some inner) : store.Holds inner := by
  obtain ⟨site, found⟩ := next_mapping leads
  obtain ⟨rfl, mapping⟩ := mapping?_eq_some.mp found
  obtain ⟨entries, here⟩ := isMapping_iff.mp mapping
  change Entries.find? (store.entries site) _ = _ at leads
  rw [entries_of_object? here] at leads
  obtain ⟨present, member⟩ := Entries.find?_mem leads
  cases tidy site _ here with
  | mapping keys named held => exact held _ member

theorem Tidy.along (tidy : store.Tidy fits) (held : store.Holds cell) (leads : store.along cell path = some inner) :
    store.Holds inner := by
  induction path generalizing cell with
  | nil =>
      cases leads
      exact held
  | cons name rest ih =>
      rw [along_cons] at leads
      obtain ⟨middle, step, further⟩ := Option.bind_eq_some_iff.mp leads
      exact ih (tidy.next step) further

/-! ### More objects -/

/-- A scalar, or an object from a site on. -/
def From (first : Nat) : Cell → Prop
  | .scalar _ => True
  | .object site => first ≤ site

/-- Objects that fit came to a store one after another; in them stands what is from a site on. -/
inductive Added (fits : String → Prop) (first : Nat) (store : Store) : Store → Prop where
  | refl : Added fits first store store
  | add {after : Store} {object : Object} (added : Added fits first store after)
      (known : Fits fits (fun cell => after.Holds cell ∧ From first cell) object) : Added fits first store (after.add object)

variable {first : Nat}

namespace Added

theorem trans {middle : Store} (one : Added fits first store middle) (other : Added fits first middle after) :
    Added fits first store after := by
  induction other with
  | refl => exact one
  | add added known ih => exact ih.add known

theorem kept (added : Added fits first store after) {object : Object} (found : store.object? site = some object) :
    after.object? site = some object := by
  induction added with
  | refl => exact found
  | add added known ih => exact object?_add ih _

theorem grows (added : Added fits first store after) : store.newSite ≤ after.newSite := by
  induction added with
  | refl => exact Nat.le_refl _
  | add added known ih => exact Nat.le_trans ih (add_grows _ _)

theorem tidy (added : Added fits first store after) (tidy : store.Tidy fits) : after.Tidy fits := by
  induction added with
  | refl => exact tidy
  | add added known ih => exact ih.add (known.mono fun _ => And.left)

/-- Objects of the store are as they were. -/
theorem object? (added : Added fits first store after) (inside : site < store.newSite) :
    after.object? site = store.object? site :=
  (added.kept (List.getElem?_eq_getElem inside)).trans (List.getElem?_eq_getElem inside).symm

theorem isMapping (added : Added fits first store after) (inside : site < store.newSite) :
    after.isMapping site = store.isMapping site := by
  unfold Store.isMapping
  rw [added.object? inside]

theorem next (added : Added fits first store after) (held : store.Holds cell) (name : String) :
    after.next cell name = store.next cell name := by
  cases cell with
  | scalar => rfl
  | object site =>
      change Entries.find? (after.entries site) _ = Entries.find? (store.entries site) _
      unfold entries
      rw [added.object? held]

/-- Names lead from what was in the store where they led. -/
theorem along (added : Added fits first store after) (tidy : store.Tidy fits) (held : store.Holds cell)
    (path : List String) : after.along cell path = store.along cell path := by
  induction path generalizing cell with
  | nil => rfl
  | cons name rest ih =>
      rw [along_cons, along_cons, added.next held name]
      cases step : store.next cell name with
      | none => rfl
      | some inner => exact ih (tidy.next step)

end Added

end Store

/-! ### Documents -/

/-- The keys of all mappings in a document are names that fit, each of them once. -/
inductive Document.Named (fits : String → Prop) : Document → Prop where
  | scalar (key : Key) : Named fits (.scalar key)
  | list {mark : Option Nat} {items : List Document} (parts : ∀ item ∈ items, Named fits item) :
      Named fits (.list mark items)
  | mapping {mark : Option Nat} {entries : List (Key × Document)} (keys : (Entries.faces entries).Nodup)
      (named : ∀ entry ∈ entries, ∃ name, entry.1 = .text name ∧ fits name)
      (parts : ∀ entry ∈ entries, Named fits entry.2) : Named fits (.mapping mark entries)

namespace Bringing

variable {fits : String → Prop} {first : Nat} {before middle after : Bringing}

/-- Marks are known for objects of the store, from a site on. -/
def Knows (bringing : Bringing) (first : Nat) : Prop :=
  ∀ entry ∈ bringing.known, first ≤ entry.2 ∧ entry.2 < bringing.store.newSite

/-- A cell of the store, from a site on. -/
def Offers (bringing : Bringing) (first : Nat) (cell : Cell) : Prop :=
  bringing.store.Holds cell ∧ Store.From first cell

theorem Offers.grows {cell : Cell} (offers : before.Offers first cell) (added : before.store.Added fits first after.store) :
    after.Offers first cell :=
  ⟨offers.1.grows added.grows, offers.2⟩

/-- Objects that fit were added, and marks are known for objects of the store. -/
structure Fills (fits : String → Prop) (first : Nat) (before after : Bringing) : Prop where
  added : before.store.Added fits first after.store
  known : after.Knows first

theorem Fills.refl (known : before.Knows first) : Fills fits first before before :=
  ⟨.refl, known⟩

theorem Fills.trans (one : Fills fits first before middle) (other : Fills fits first middle after) :
    Fills fits first before after :=
  ⟨one.added.trans other.added, other.known⟩

theorem Fills.add (fills : Fills fits first before after) (above : first ≤ before.store.newSite) {object : Object}
    (known : Store.Fits fits (after.Offers first) object) (mark : Option Nat) :
    Fills fits first before (after.add mark object).1 ∧
      (after.add mark object).1.Offers first (after.add mark object).2 := by
  have grown : (after.add mark object).1.store.newSite = after.store.newSite + 1 := Store.newSite_add ..
  have reached : first ≤ after.store.newSite := Nat.le_trans above fills.added.grows
  have inside : after.store.newSite < (after.add mark object).1.store.newSite :=
    Nat.lt_of_lt_of_eq (Nat.lt_succ_self _) grown.symm
  refine ⟨⟨fills.added.add known, fun entry member => ?_⟩, inside, reached⟩
  rcases List.mem_append.mp member with here | old
  · obtain ⟨number, -, rfl⟩ := List.mem_map.mp here
    exact ⟨reached, inside⟩
  · exact ⟨(fills.known entry old).1, Nat.lt_trans (fills.known entry old).2 inside⟩

theorem Knows.site? {bringing : Bringing} {mark : Option Nat} {site : Nat} (knows : bringing.Knows first)
    (found : bringing.site? mark = some site) : bringing.Offers first (.object site) := by
  obtain ⟨number, -, listed⟩ := Option.bind_eq_some_iff.mp found
  obtain ⟨before, behind, whole, -⟩ := List.lookup_eq_some_iff.mp listed
  have bounds := knows (number, site) (whole ▸ List.mem_append_right _ List.mem_cons_self)
  exact ⟨bounds.2, bounds.1⟩

mutual
/-- All that comes with a document are objects that fit. -/
theorem bring_added (bringing : Bringing) (knows : bringing.Knows first) (above : first ≤ bringing.store.newSite)
    {document : Document} (named : document.Named fits) :
    Fills fits first bringing (bringing.bring document).1 ∧
      (bringing.bring document).1.Offers first (bringing.bring document).2 := by
  match document, named with
  | .scalar key, _ => exact ⟨.refl knows, trivial, trivial⟩
  | .list mark items, .list parts =>
      rw [bring]
      cases found : bringing.site? mark with
      | some site => exact ⟨.refl knows, knows.site? found⟩
      | none =>
          obtain ⟨fills, held⟩ := bringItems_added bringing knows above parts
          exact fills.add above (.list held) mark
  | .mapping mark entries, .mapping keys names parts =>
      rw [bring]
      cases found : bringing.site? mark with
      | some site => exact ⟨.refl knows, knows.site? found⟩
      | none =>
          obtain ⟨fills, same, held⟩ := bringEntries_added bringing knows above parts
          refine fills.add above (.mapping ?_ (fun entry member => ?_) held) mark
          · have faces : Entries.faces (bringing.bringEntries entries).2 = Entries.faces entries := by
              have mapped := congrArg (List.map Key.face) same
              rwa [Entries.names, Entries.names, List.map_map, List.map_map] at mapped
            rwa [faces]
          · have listed : entry.1 ∈ Entries.names entries := same ▸ List.mem_map_of_mem member
            obtain ⟨other, within, alike⟩ := List.mem_map.mp listed
            exact alike ▸ names other within

theorem bringItems_added (bringing : Bringing) (knows : bringing.Knows first) (above : first ≤ bringing.store.newSite)
    {items : List Document} (named : ∀ item ∈ items, item.Named fits) :
    Fills fits first bringing (bringing.bringItems items).1 ∧
      ∀ cell ∈ (bringing.bringItems items).2, (bringing.bringItems items).1.Offers first cell := by
  match items with
  | [] => exact ⟨.refl knows, List.forall_mem_nil _⟩
  | item :: rest =>
      obtain ⟨here, behind⟩ := List.forall_mem_cons.mp named
      obtain ⟨fills, offers⟩ := bring_added bringing knows above here
      obtain ⟨others, more⟩ := bringItems_added _ fills.known (Nat.le_trans above fills.added.grows) behind
      exact ⟨fills.trans others, List.forall_mem_cons.mpr ⟨offers.grows others.added, more⟩⟩

theorem bringEntries_added (bringing : Bringing) (knows : bringing.Knows first)
    (above : first ≤ bringing.store.newSite) {entries : List (Key × Document)}
    (named : ∀ entry ∈ entries, entry.2.Named fits) :
    Fills fits first bringing (bringing.bringEntries entries).1 ∧
      Entries.names (bringing.bringEntries entries).2 = Entries.names entries ∧
      ∀ entry ∈ (bringing.bringEntries entries).2, (bringing.bringEntries entries).1.Offers first entry.2 := by
  match entries with
  | [] => exact ⟨.refl knows, rfl, List.forall_mem_nil _⟩
  | (key, part) :: rest =>
      obtain ⟨here, behind⟩ := List.forall_mem_cons.mp named
      obtain ⟨fills, offers⟩ := bring_added bringing knows above here
      obtain ⟨others, same, more⟩ := bringEntries_added _ fills.known (Nat.le_trans above fills.added.grows) behind
      refine ⟨fills.trans others, congrArg (key :: ·) same, List.forall_mem_cons.mpr ⟨?_, more⟩⟩
      exact offers.grows others.added
end

end Bringing

/-- What comes with a document leads only to what comes with it. -/
theorem Store.bring_added (store : Store) {fits : String → Prop} {document : Document} (named : document.Named fits) :
    store.Added fits store.newSite (store.bring document).1 ∧
      (store.bring document).1.Holds (store.bring document).2 ∧
      Store.From store.newSite (store.bring document).2 := by
  obtain ⟨fills, offers⟩ := Bringing.bring_added ⟨store, []⟩ (List.forall_mem_nil _) (Nat.le_refl _) named
  exact ⟨fills.added, offers⟩

end ChipEight
