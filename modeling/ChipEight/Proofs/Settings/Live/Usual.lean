/-
This file shows that settings in which nothing is touched along a path say there what the first ones say, also
if some of their mappings stand in many places or within themselves.
-/

import ChipEight.Proofs.Settings.Live.Mirrors
import ChipEight.Proofs.Settings.Live.Sharing

namespace ChipEight.Settings

variable {value inner : Value} {entries : Entries} {path : List String} {room : Nat}

/-! ### Values without lists -/

/-- Scalars, and mappings of such values whose keys are plain names, each of them once. -/
inductive IsBare : Value → Prop where
  | scalar {key : Key} {value : Value} (same : key.toValue = value) : IsBare value
  | dict {entries : Entries} (keys : (Entries.faces entries).Nodup)
      (named : ∀ entry ∈ entries, ∃ name, entry.1 = .text name ∧ IsPlain name)
      (parts : ∀ entry ∈ entries, IsBare entry.2) : IsBare (.dict entries)

theorem toValue_entries? (key : Key) : key.toValue.entries? = none := by
  cases key <;> rfl

/-- A value that is there by its name: its names are plain, and it is bare too. -/
theorem IsBare.find? (bare : IsBare value) (found : Settings.find? value path = some inner) :
    IsBare inner ∧ ∀ part ∈ path, IsPlain part := by
  induction path generalizing value with
  | nil =>
      cases found
      exact ⟨bare, List.forall_mem_nil _⟩
  | cons part rest ih =>
      rw [find?_cons] at found
      obtain ⟨next, here, there⟩ := Option.bind_eq_some_iff.mp found
      cases bare with
      | @scalar key _ same =>
          subst same
          cases key <;> cases here
      | dict keys named parts =>
          obtain ⟨present, member, face⟩ := Entries.find?_entry here
          obtain ⟨name, rfl, plain⟩ := named _ member
          cases Face.text.inj face
          obtain ⟨last, others⟩ := ih (parts _ member) there
          exact ⟨last, List.forall_mem_cons.mpr ⟨plain, others⟩⟩

theorem ofEntries_eq (entries : Entries) : Document.ofEntries entries = Entries.mapValues Document.ofValue entries := by
  induction entries with
  | nil => rfl
  | cons entry rest ih =>
      rw [Document.ofEntries, ih]
      rfl

theorem ofValue_toValue (key : Key) : Document.ofValue key.toValue = .scalar key := by
  cases key <;> rfl

theorem IsBare.document (bare : IsBare value) : (Document.ofValue value).Named IsPlain := by
  induction bare with
  | scalar same =>
      subst same
      rw [ofValue_toValue]
      exact .scalar _
  | dict keys named parts ih =>
      rw [Document.ofValue, ofEntries_eq]
      refine .mapping ?_ (fun entry member => ?_) fun entry member => ?_
      · rwa [Entries.faces_mapValues]
      · obtain ⟨part, within, -⟩ := Entries.mem_mapValues member
        exact named _ within
      · obtain ⟨part, within, same⟩ := Entries.mem_mapValues member
        exact same ▸ ih _ within

theorem IsBare.record {fields : List (String × Value)} (single : (fields.map Prod.fst).Nodup)
    (plain : ∀ field ∈ fields, IsPlain field.1) (parts : ∀ field ∈ fields, IsBare field.2) :
    IsBare (Value.record fields) := by
  refine .dict (Value.record_faces single) (fun entry member => ?_) fun entry member => ?_
  · obtain ⟨field, within, rfl⟩ := List.mem_map.mp member
    exact ⟨field.1, rfl, plain field within⟩
  · obtain ⟨field, within, rfl⟩ := List.mem_map.mp member
    exact parts field within

theorem defaults_bare : IsBare (.dict defaults) := by
  have text (characters : String) : IsBare (.text characters) := @IsBare.scalar (.text characters) _ rfl
  have bool (flag : Bool) : IsBare (.bool flag) := @IsBare.scalar (.bool flag) _ rfl
  have int (number : Int) : IsBare (.int number) := @IsBare.scalar (.int number) _ rfl
  have null : IsBare .null := @IsBare.scalar .null _ rfl
  have logging : IsBare (Value.record [("level", .text "INFO"), ("file", .null), ("console", .bool true)]) :=
    .record (by decide) (by simp [IsPlain]) (by simp [text, bool, null])
  have recording : IsBare (Value.record [("enabled", .bool false), ("max_history", .int Recorder.usualLimit),
      ("compression_ratio", .int Recorder.usualRatio), ("format", .text "json")]) :=
    .record (by decide) (by simp [IsPlain]) (by simp [text, bool, int])
  have output : IsBare (Value.record [("dump_display", .bool false), ("plot", .bool false),
      ("directory", .text "./output")]) :=
    .record (by decide) (by simp [IsPlain]) (by simp [text, bool])
  refine .dict (by decide) ?_ ?_ <;> simp [defaults, IsPlain, text, int, logging, recording, output]

namespace Live

open Document (entryMarks entryValues)

variable {store grown : Store} {document : Document} {cell : Cell} {site : Nat} {live : Live} {one two way : List String}

/-! ### Documents in a store -/

/-- What a document in a store says is what is there, name after name. -/
theorem stands_matches (stands : store.Stands document) (bare : IsBare document.value) (path : List String) :
    Matches store (store.along document.cell path) (Settings.find? document.value path) := by
  induction path generalizing document with
  | nil =>
      cases stands with
      | scalar key => exact .scalar rfl
      | list here parts =>
          cases bare with
          | @scalar key _ same => cases key <;> cases same
      | mapping here parts => exact .mapping (Store.isMapping_of_object? here)
  | cons name rest ih =>
      have step := stands.step (.text name)
      rw [Store.along_cons, find?_cons, Store.next_eq, step]
      cases stands with
      | scalar key => cases key <;> exact .none
      | list here parts => exact .none
      | @mapping site entries here parts =>
          change Matches store _ ((Entries.find? (entryValues entries) (.text name)).bind _)
          rw [entryValues_find?]
          change Matches store (((Entries.find? entries (.text name)).map Document.cell).bind _) _
          cases found : Entries.find? entries (.text name) with
          | none => exact .none
          | some inner =>
              obtain ⟨present, member⟩ := Entries.find?_mem found
              refine ih (parts _ member) ?_
              cases bare with
              | @scalar key _ same => cases key <;> cases same
              | dict keys named bares =>
                  change ∀ entry ∈ entryValues entries, _ at bares
                  rw [Document.entryValues_eq] at bares
                  exact bares _ (Entries.mapValues_mem member)

/-- The site of an object is among the marks of its document. -/
theorem stands_mark (stands : store.Stands document) (same : document.cell = .object site) : site ∈ document.marks := by
  cases stands with
  | scalar key => cases same
  | list here parts => cases same; exact List.mem_cons_self
  | mapping here parts => cases same; exact List.mem_cons_self

/-- A path to an object in a document is a path to one of its marks. -/
theorem reach_mark (stands : store.Stands document)
    (leads : store.along document.cell way = some (.object site)) : site ∈ document.marks := by
  rw [stands.along] at leads
  obtain ⟨part, found, same⟩ := Option.map_eq_some_iff.mp leads
  exact (Document.reach_marks found).subset (stands_mark (stands.reach found) same)

theorem along_step {name : String} {rest : List String} (stands : store.Stands document)
    (leads : store.along document.cell (name :: rest) = some cell) :
    ∃ mark entries inner, document = .mapping (some mark) entries ∧ Entries.find? entries (.text name) = some inner ∧
      store.Stands inner ∧ store.along inner.cell rest = some cell := by
  rw [Store.along_cons, Store.next_eq, stands.step] at leads
  obtain ⟨middle, step, further⟩ := Option.bind_eq_some_iff.mp leads
  obtain ⟨inner, found, rfl⟩ := Option.map_eq_some_iff.mp step
  have under := stands.under found
  obtain ⟨entries, mapping, held⟩ := Option.bind_eq_some_iff.mp found
  cases stands with
  | scalar key => cases mapping
  | list here parts => cases mapping
  | mapping here parts =>
      cases mapping
      exact ⟨_, _, inner, rfl, held, under, further⟩

/-- If no object stands in two places, none is inside itself. -/
theorem not_inside (stands : store.Stands document) (single : document.IsSingle)
    (own : document.cell = .object site) (name : String) (rest : List String) :
    store.along document.cell (name :: rest) ≠ some (.object site) := by
  intro inside
  obtain ⟨mark, entries, inner, rfl, held, under, further⟩ := along_step stands inside
  cases own
  obtain ⟨present, member⟩ := Entries.find?_mem held
  exact single.apart ((Document.part_marks member).subset (reach_mark under further))

/-- One path leads to each of the objects then. -/
theorem single_path (stands : store.Stands document) (single : document.IsSingle)
    (here : store.along document.cell one = some (.object site))
    (there : store.along document.cell two = some (.object site)) : one = two := by
  induction one generalizing document two with
  | nil =>
      cases two with
      | nil => rfl
      | cons name rest => exact absurd there (not_inside stands single (Option.some.inj here) name rest)
  | cons name more ih =>
      cases two with
      | nil => exact absurd here (not_inside stands single (Option.some.inj there) name more)
      | cons other rest =>
          obtain ⟨mark, entries, inner, rfl, held, under, further⟩ := along_step stands here
          obtain ⟨_, _, next, same, listed, beside, beyond⟩ := along_step stands there
          cases same
          obtain ⟨title, member, face⟩ := Entries.find?_entry held
          obtain ⟨label, within, alike⟩ := Entries.find?_entry listed
          by_cases equal : (title, inner) = (label, next)
          · cases equal
            cases Face.text.inj (face.trans alike.symm)
            exact congrArg (name :: ·) (ih under (single.part member) further beyond)
          · exact absurd (reach_mark beside beyond)
              (single.disjoint member within equal site (reach_mark under further))

/-! ### The first settings -/

/-- First settings are covered, and what was in the store before stands apart from them. -/
theorem fresh_covered (tidy : store.Tidy IsPlain) (roomy : (Value.dict defaults).depth ≤ (fresh store).store.newSite) :
    (fresh store).Covered ∧ ∀ cell, store.Holds cell → (fresh store).Apart cell := by
  obtain ⟨placed, comes, cell, entries, mapping⟩ := fresh_holds store
  obtain ⟨added, held, -⟩ := store.bring_added defaults_bare.document
  have stands := comes.stands
  have told : placed.value = .dict defaults := comes.told.trans (Document.value_ofValue _)
  have whole (path : List String) : (fresh store).reach path = (fresh store).store.along placed.cell path := by
    rw [cell]
    rfl
  refine ⟨⟨added.tidy tidy, ?_, roomy, fun one two site _ here there => ?_, fun path => ?_⟩, fun other inside => ?_⟩
  · subst mapping
    exact Store.isMapping_of_object? stands.here
  · rw [whole] at here there
    exact .inl (single_path stands comes.single here there)
  · rw [whole, ← told]
    exact .inr (.inl (stands_matches stands (told ▸ defaults_bare) path))
  · refine ⟨inside.grows added.grows, fun path way site _ leads there => ?_⟩
    rw [whole] at there
    have new := comes.new site (reach_mark stands there)
    have old := tidy.along inside ((added.along tidy inside path).symm.trans leads)
    exact absurd old (Nat.not_lt.mpr new)

/-! ### What stores say -/

theorem find?_depth {value inner : Value} {path : List String} (found : Settings.find? value path = some inner) :
    inner.depth + path.length ≤ value.depth := by
  induction path generalizing value with
  | nil =>
      cases found
      exact Nat.le_refl _
  | cons part rest ih =>
      rw [find?_cons] at found
      obtain ⟨next, here, there⟩ := Option.bind_eq_some_iff.mp found
      have within := ih there
      cases value with
      | dict entries =>
          obtain ⟨present, member⟩ := Entries.find?_mem here
          have deeper := Value.depth_dict_le_iff.mp (Nat.le_refl (Value.dict entries).depth) _ member
          change next.depth ≤ Value.depthOfEntries entries at deeper
          change _ ≤ Value.depthOfEntries entries + 1
          rw [List.length_cons]
          omega
      | _ => cases here

theorem unfold_named (tidy : store.Tidy IsPlain) (room : Nat) (cell : Cell) :
    (store.unfold room cell).Named fun _ => True := by
  induction room generalizing cell with
  | zero => cases cell with
      | scalar key => rw [Store.unfold]; exact .other (toValue_entries? key)
      | object site => rw [Store.unfold]; exact .other rfl
  | succ room ih =>
      cases cell with
      | scalar key => rw [Store.unfold]; exact .other (toValue_entries? key)
      | object site =>
          cases found : store.object? site with
          | none =>
              rw [Store.unfold, found]
              exact .other rfl
          | some object =>
              cases object with
              | list items =>
                  rw [Store.unfold_list found]
                  exact .other rfl
              | mapping entries =>
                  rw [Store.unfold_mapping found]
                  cases tidy site _ found with
                  | mapping keys named held =>
                      refine .dict ?_ (fun entry member => ?_) fun entry member => ?_
                      · rwa [Entries.faces_mapValues]
                      · obtain ⟨inner, within, -⟩ := Entries.mem_mapValues member
                        exact (named _ within).imp fun _ known => ⟨known.1, trivial⟩
                      · obtain ⟨inner, within, same⟩ := Entries.mem_mapValues member
                        exact same ▸ ih inner

/-- Under a name of what is told of a cell stands what is told of the cell under the name. -/
theorem field?_unfold (room : Nat) (cell : Cell) (name : String) :
    (store.unfold (room + 1) cell).field? name = (store.next cell name).map (store.unfold room) := by
  cases cell with
  | scalar key => rw [Store.unfold]; cases key <;> rfl
  | object site =>
      change _ = (Entries.find? (store.entries site) (.text name)).map _
      cases found : store.object? site with
      | none =>
          rw [Store.unfold, Store.entries, found]
          rfl
      | some object =>
          cases object with
          | list items =>
              rw [Store.unfold_list found, Store.entries, found]
              rfl
          | mapping entries =>
              rw [Store.unfold_mapping found, Store.entries_of_object? found]
              exact Entries.find?_mapValues _ entries _

theorem find?_unfold (room : Nat) (cell : Cell) (path : List String) :
    Settings.find? (store.unfold room cell) path =
      if path.length ≤ room then (store.along cell path).map (store.unfold (room - path.length)) else none := by
  induction path generalizing room cell with
  | nil => rfl
  | cons name rest ih =>
      rw [find?_cons]
      cases room with
      | zero =>
          rw [if_neg (by simp)]
          cases cell with
          | scalar key => rw [Store.unfold]; cases key <;> rfl
          | object site => rw [Store.unfold]; rfl
      | succ room =>
          rw [field?_unfold, Store.along_cons, List.length_cons, Nat.add_sub_add_right]
          cases store.next cell name with
          | none => simp
          | some inner =>
              change Settings.find? (store.unfold room inner) rest = _
              rw [ih]
              simp only [Nat.add_le_add_iff_right, Option.bind_some]

/-- What is as a value, name after name, is the same as far as the value goes. -/
theorem unfold_same {value : Value} {room : Nat} (tidy : store.Tidy IsPlain) (json : value.IsJson)
    (roomy : value.depth ≤ room) (alike : ∀ path, Matches store (store.along cell path) (Settings.find? value path)) :
    (store.unfold room cell).same value = true := by
  induction room generalizing cell value with
  | zero => cases value <;> exact absurd roomy (Nat.not_succ_le_zero _)
  | succ room ih =>
      have top : Matches store (some cell) (some value) := alike []
      rcases value.entries_cases with ⟨entries, rfl⟩ | shapeless
      case inr =>
        cases top with
        | mapping => cases shapeless
        | scalar same =>
            subst same
            rw [Store.unfold]
            exact json.same_self
      cases top with
      | @scalar key _ same => cases key <;> cases same
      | @mapping site _ mapping =>
          obtain ⟨cells, here⟩ := Store.isMapping_iff.mp mapping
          have named := unfold_named tidy (room + 1) (.object site)
          rw [Store.unfold_mapping here] at named ⊢
          refine same_of_agree named (.of_json json) fun name => ?_
          have leads := alike [name]
          rw [Store.along_single, find?_top, Store.next, Store.find?, Store.entries_of_object? here] at leads
          rw [Entries.find?_mapValues]
          cases present : Entries.find? entries (.text name) with
          | none =>
              rw [present] at leads
              cases held : Entries.find? cells (.text name) with
              | none => trivial
              | some inner =>
                  rw [held] at leads
                  cases leads
          | some wanted =>
              obtain ⟨key, member⟩ := Entries.find?_mem present
              cases held : Entries.find? cells (.text name) with
              | none =>
                  rw [present, held] at leads
                  cases leads
              | some inner =>
                  refine ih (json.part member) (Value.depth_dict_le_iff.mp roomy _ member) fun path => ?_
                  have further := alike (name :: path)
                  rwa [Store.along_cons, find?_cons, Store.next, Store.find?, Store.entries_of_object? here, held,
                    Value.field?, present] at further

/-! ### What covered settings say -/

theorem Covered.shown (covered : live.Covered) : Value.dict live.shown.tree = live.store.look (.object live.root) := by
  obtain ⟨entries, here⟩ := Store.isMapping_iff.mp covered.root
  obtain ⟨room, size⟩ := Nat.exists_eq_add_of_lt (Store.site_lt here)
  have whole : live.store.look (.object live.root) =
      .dict (Entries.mapValues (live.store.unfold (live.root + room)) entries) := by
    rw [Store.look, show live.store.objects.length = live.root + room + 1 from size]
    exact Store.unfold_mapping here _
  rw [Live.shown, whole]
  rfl

/-- A path along which no name is touched leads to what it leads to at first. -/
theorem Covered.agree {path : List String} (covered : live.Covered)
    (untold : ∀ name, Key.text name ∈ live.modified → ¬ Meet (parts name) path) :
    Agree (Settings.find? (.dict live.shown.tree) path) (Settings.find? (.dict defaults) path) := by
  have alike (rest : List String) :
      Matches live.store (live.reach (path ++ rest)) (Settings.find? (.dict defaults) (path ++ rest)) := by
    rcases covered.told (path ++ rest) with touched | alike | opens
    · obtain ⟨name, known, begins⟩ := touched
      exact absurd (Meet.start (.inl begins)) (untold name known)
    · exact alike
    · obtain ⟨name, known, begins⟩ := opens.noted
      exact absurd (Meet.start (.inr begins)) (untold name known)
  have top := alike []
  rw [List.append_nil] at top
  rw [covered.shown, Store.look, find?_unfold]
  change Agree (if _ then (live.reach path).map _ else none) _
  cases found : Settings.find? (.dict defaults) path with
  | none =>
      rw [found] at top
      cases leads : live.reach path with
      | none => simp [Agree]
      | some cell =>
          rw [leads] at top
          cases top
  | some value =>
      have deep := Nat.le_trans (find?_depth found) covered.roomy
      change _ ≤ live.store.objects.length at deep
      rw [if_pos (by omega)]
      cases leads : live.reach path with
      | none =>
          rw [found, leads] at top
          cases top
      | some cell =>
          refine unfold_same covered.tidy (isJson_closed.find? 0 initial_json found) (by omega) fun rest => ?_
          have further := alike rest
          rwa [reach, Store.along_further leads, find?_append, found, Option.bind_some] at further

end Live

end ChipEight.Settings
