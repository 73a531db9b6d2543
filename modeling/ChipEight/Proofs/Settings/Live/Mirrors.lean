/-
This file shows that settings in which no object stands in two places change as copies of them would. What
is brought from outside and set is then found under its name alone.
-/

import ChipEight.Proofs.Settings.Modified
import ChipEight.Proofs.Store.Bringing
import ChipEight.Proofs.Store.Turning
import ChipEight.Settings.Live

namespace ChipEight.Settings.Live

open Document (entryMarks entryValues)

variable {live : Live} {settings : Settings} {store : Store} {site inner : Nat} {key : Key}
  {part document placed : Document} {entries old : List (Key × Document)} {path : List String} {name : String}

/-- These are the entries of the settings, and no object of them stands in two places. -/
structure Holds (live : Live) (entries : List (Key × Document)) : Prop where
  stands : live.store.Stands (.mapping (some live.root) entries)
  single : (Document.mapping (some live.root) entries).IsSingle

/-- No object of the settings stands in two places, and they say what other settings say that share nothing
with anybody. -/
structure Mirrors (live : Live) (settings : Settings) : Prop where
  tree : ∃ entries, live.Holds entries ∧ entryValues entries = settings.tree
  modified : live.modified = settings.modified

/-- No object of the settings stands in two places. -/
def IsSingle (live : Live) : Prop :=
  ∃ entries, live.Holds entries

theorem Holds.look (holds : live.Holds entries) :
    live.store.look (.object live.root) = .dict (entryValues entries) :=
  holds.stands.look holds.single

theorem Mirrors.shown (mirrors : live.Mirrors settings) : live.shown = settings := by
  obtain ⟨⟨entries, holds, tree⟩, modified⟩ := mirrors
  rw [Live.shown, holds.look, tree, modified]
  rfl

theorem Mirrors.single (mirrors : live.Mirrors settings) : live.IsSingle :=
  mirrors.tree.imp fun _ => And.left

theorem IsSingle.mirrors (single : live.IsSingle) : live.Mirrors live.shown := by
  obtain ⟨entries, holds⟩ := single
  refine ⟨⟨entries, holds, ?_⟩, rfl⟩
  rw [Live.shown, holds.look]
  rfl

/-! ### First settings -/

theorem fresh_holds (store : Store) : ∃ placed, store.Placed (fresh store).store (.ofValue (.dict defaults)) placed ∧
    placed.cell = .object (fresh store).root ∧ ∃ entries, placed = .mapping (some (fresh store).root) entries := by
  obtain ⟨placed, cell, comes⟩ := store.bring_placed (Document.ofValue_single (.dict defaults))
  have told := comes.told
  rw [Document.value_ofValue] at told
  have stands := comes.stands
  cases stands with
  | scalar key => cases key <;> cases told
  | list => cases told
  | @mapping site entries here parts =>
      have root : (fresh store).root = site := by
        change ((store.bring (.ofValue (.dict defaults))).1.mapping?
          (store.bring (.ofValue (.dict defaults))).2).getD 0 = site
        rw [cell]
        exact congrArg (fun found => found.getD 0) (Store.mapping?_of_object? here)
      rw [root]
      exact ⟨_, comes, rfl, _, rfl⟩

theorem fresh_mirrors (store : Store) : (fresh store).Mirrors Settings.initial := by
  obtain ⟨placed, comes, -, entries, rfl⟩ := fresh_holds store
  refine ⟨⟨entries, ⟨comes.stands, comes.single⟩, ?_⟩, rfl⟩
  have told := comes.told
  rw [Document.value_ofValue] at told
  exact Value.dict.inj told

/-! ### Putting along a path -/

/-- Under a key of a mapping there is another mapping or not. -/
theorem below_cases (stands : store.Stands (.mapping (some site) entries)) (key : Key) :
    (∃ inner old, Entries.find? entries key = some (.mapping (some inner) old) ∧ below? store site key = some inner) ∨
      below? store site key = none ∧ ∀ mark old, Entries.find? entries key ≠ some (.mapping mark old) := by
  unfold below?
  rw [stands.find?]
  cases found : Entries.find? entries key with
  | none => exact .inr ⟨rfl, nofun⟩
  | some held =>
      obtain ⟨_, member⟩ := Entries.find?_mem found
      have within := stands.part member
      cases held with
      | scalar key => exact .inr ⟨rfl, nofun⟩
      | list mark items => exact .inr ⟨within.mapping?, nofun⟩
      | mapping mark old =>
          cases within with
          | mapping here parts => exact .inl ⟨_, old, rfl, Store.mapping?_of_object? here⟩

theorem entryValues_put (entries : List (Key × Document)) (key : Key) (part : Document) :
    entryValues (Entries.put entries key part) = Entries.put (entryValues entries) key part.value := by
  rw [Document.entryValues_eq, Document.entryValues_eq, Entries.put_mapValues]

theorem entryValues_find? (entries : List (Key × Document)) (key : Key) :
    Entries.find? (entryValues entries) key = (Entries.find? entries key).map Document.value := by
  rw [Document.entryValues_eq, Entries.find?_mapValues]

theorem inside_mapping {mark : Option Nat} {part : String}
    (found : Entries.find? entries (.text part) = some (.mapping mark old)) :
    inside (entryValues entries) part = entryValues old := by
  rw [inside, entryValues_find?, found]
  rfl

theorem inside_none {part : String}
    (apart : ∀ mark old, Entries.find? entries (.text part) ≠ some (.mapping mark old)) :
    inside (entryValues entries) part = [] := by
  rw [inside, entryValues_find?]
  cases found : Entries.find? entries (.text part) with
  | none => rfl
  | some held =>
      cases held with
      | scalar key => cases key <;> rfl
      | list => rfl
      | mapping mark old => exact absurd found (apart mark old)

/-- What has nothing in common with a mapping is put along a path from it. -/
theorem putAlong_turned (filled : path ≠ []) (stands : store.Stands (.mapping (some site) entries))
    (single : (Document.mapping (some site) entries).IsSingle) (new : store.Stands part) (alone : part.IsSingle)
    (apart : ∀ mark ∈ part.marks, mark ≠ site ∧ mark ∉ entryMarks entries) :
    ∃ changed, store.Turned (putAlong store site part.cell path) part.marks site entries changed ∧
      entryValues changed = put (entryValues entries) part.value path := by
  induction path generalizing store site entries with
  | nil => exact absurd rfl filled
  | cons name more ih =>
      cases more with
      | nil =>
          exact ⟨_, .put stands single new alone apart (.text name), entryValues_put entries (.text name) part⟩
      | cons next others =>
          have further : next :: others ≠ [] := List.cons_ne_nil next others
          rw [put_cons _ part.value name further]
          rcases below_cases stands (.text name) with ⟨inner, old, found, below⟩ | ⟨below, lacks⟩
          · obtain ⟨present, member⟩ := Entries.find?_mem found
            have known {mark : Nat} (within : mark = inner ∨ mark ∈ entryMarks old) : mark ∈ entryMarks entries :=
              (Document.part_marks member).subset (List.mem_cons.mpr within)
            obtain ⟨changed, turned, tree⟩ := ih further (stands.part member) (single.part member) new
              fun mark inside => ⟨fun same => (apart mark inside).2 (known (.inl same)),
                fun within => (apart mark inside).2 (known (.inr within))⟩
            rw [putAlong, below]
            · refine ⟨_, turned.within stands single found apart, ?_⟩
              rw [entryValues_put, inside_mapping found, ← tree]
              rfl
            · exact further
          · let empty := Document.mapping (some store.newSite) []
            have created := Store.Turned.created stands single (.text name)
            have placed : Entries.find? (Entries.put entries (.text name) empty) (.text name) = some empty :=
              Entries.findPutSame entries (.text name) empty
            obtain ⟨present, member⟩ := Entries.find?_mem placed
            have fresh (mark : Nat) (inside : mark ∈ part.marks) : mark ≠ store.newSite :=
              Nat.ne_of_lt (new.lt mark inside)
            have still : Store.Stands ((store.add (.mapping [])).put site (.text name) (.object store.newSite)) part :=
              (new.add _).put_apart fun inside => (apart site inside).1 rfl
            obtain ⟨changed, turned, tree⟩ := ih further (created.stands.part member) (created.single.part member) still
              fun mark inside => ⟨fresh mark inside, List.not_mem_nil⟩
            rw [putAlong, below]
            · refine ⟨Entries.put entries (.text name) (.mapping (some store.newSite) changed), ?_, ?_⟩
              · have whole := turned.within created.stands created.single placed fun mark inside => by
                  refine ⟨(apart mark inside).1, fun known => ?_⟩
                  rcases Document.mem_marks_put known with known | known
                  · exact (apart mark inside).2 known
                  · exact fresh mark inside (List.mem_singleton.mp known)
                rw [Entries.put_put] at whole
                exact created.trans whole
              · rw [entryValues_put, inside_none lacks]
                exact congrArg (fun inner => Entries.put _ _ (Value.dict inner)) tree
            · exact further

/-! ### Setting and resetting -/

theorem Holds.set (holds : live.Holds entries) (new : live.store.Stands part) (alone : part.IsSingle)
    (apart : ∀ mark ∈ part.marks, mark ∉ (Document.mapping (some live.root) entries).marks) (name : String) :
    ∃ changed, (live.set name part.cell).Holds changed ∧
      entryValues changed = put (entryValues entries) part.value (parts name) := by
  obtain ⟨changed, turned, tree⟩ := putAlong_turned (parts_ne_nil name) holds.stands holds.single new alone
    fun mark inside => not_or.mp (mt List.mem_cons.mpr (apart mark inside))
  exact ⟨changed, ⟨turned.stands, turned.single⟩, tree⟩

/-- Setting what comes from outside sets what it says. -/
theorem Mirrors.set (mirrors : live.Mirrors settings) (single : document.IsSingle) (name : String) :
    ((live.bring document).1.set name (live.bring document).2).Mirrors (settings.set name document.value) := by
  obtain ⟨⟨entries, holds, tree⟩, modified⟩ := mirrors
  obtain ⟨placed, cell, comes⟩ := live.store.bring_placed single
  have held : (live.bring document).1.Holds entries := ⟨comes.stay holds.stands, holds.single⟩
  obtain ⟨changed, after, puts⟩ := held.set comes.stands comes.single (comes.apart holds.stands) name
  have whole : (live.bring document).2 = placed.cell := cell
  rw [whole]
  refine ⟨⟨changed, after, ?_⟩, congrArg (note · (.text name)) modified⟩
  rw [puts, comes.told, tree]
  rfl

theorem Mirrors.reset (mirrors : live.Mirrors settings) (name : String) :
    (live.reset name).Mirrors (settings.reset name) := by
  unfold Live.reset Settings.reset
  cases Settings.find? (.dict defaults) (parts name) with
  | none => exact mirrors
  | some value =>
      obtain ⟨⟨entries, holds, tree⟩, modified⟩ := mirrors.set (Document.ofValue_single value) name
      rw [Document.value_ofValue] at tree modified
      exact ⟨⟨entries, ⟨holds.stands, holds.single⟩, tree⟩,
        congrArg (List.filter fun other => !other.same (.text name)) modified⟩

theorem Mirrors.resetAll (live : Live) (settings : Settings) : live.resetAll.Mirrors settings.resetAll :=
  fresh_mirrors live.store

end ChipEight.Settings.Live
