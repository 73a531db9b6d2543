/-
This file shows that the names of touched settings miss nothing, whatever stands in several places: wherever
settings differ from the first ones, along a path, the path begins a touched name or is begun by one. The user may
put what is his under many names, and change it there; only mappings that the settings made themselves are
not his to give.
-/

import ChipEight.Proofs.Settings.Live.Usual
import ChipEight.Proofs.Settings.Validation

namespace ChipEight.Settings.Live

variable {live : Live} {base path way rest : List String} {site start : Nat} {name last : String} {cell : Cell}
  {store : Store} {value : Value} {placed : Document} {own : List Nat}

/-! ### Loading and setting -/

theorem Apart.scalar (live : Live) (key : Key) : live.Apart (.scalar key) := by
  refine ⟨trivial, fun path way site mapping leads there => ?_⟩
  cases path with
  | nil => cases leads
  | cons name rest =>
      rw [Store.along_cons] at leads
      cases leads

/-- What says a mapping is one. -/
theorem mapping_of_look {entries : Entries} (looks : store.look cell = .dict entries) :
    ∃ site, cell = .object site ∧ store.mapping? cell = some site := by
  unfold Store.look at looks
  cases cell with
  | scalar key =>
      rw [Store.unfold] at looks
      cases key <;> cases looks
  | object site =>
      refine ⟨site, rfl, ?_⟩
      cases size : store.objects.length with
      | zero =>
          rw [size, Store.unfold] at looks
          cases looks
      | succ room =>
          rw [size, Store.unfold] at looks
          cases found : store.object? site with
          | none =>
              rw [found] at looks
              cases looks
          | some object =>
              cases object with
              | list items =>
                  rw [found] at looks
                  cases looks
              | mapping entries => exact Store.mapping?_of_object? found

theorem Covered.loads (covered : live.Covered) (apart : live.Apart cell) (room : Nat) :
    (live.loadCell room cell).live.Covered ∧ Keeps live (live.loadCell room cell).live := by
  unfold Live.loadCell
  split
  case h_1 => exact ⟨covered, .refl live⟩
  case h_2 passes =>
    obtain ⟨entries, looks, -⟩ := (validate_nil_iff _).mp passes
    obtain ⟨site, rfl, mapping⟩ := mapping_of_look looks
    rw [mapping]
    exact merge_covering room top [] site live.root live .top covered apart covered.aimed
  case h_3 => exact ⟨covered, .refl live⟩

theorem Covered.sets (covered : live.Covered) (apart : live.Apart cell) (plain : ∀ part ∈ parts name, IsPlain part) :
    (live.set name cell).Covered ∧ Keeps live (live.set name cell) := by
  obtain ⟨noted, keeps⟩ := covered.noted (note live.modified (.text name)) fun _ => mem_note
  have known : Key.text name ∈ note live.modified (.text name) := note_mem live.modified name
  obtain ⟨covers, more⟩ := noted.putsAlong noted.aimed (parts_ne_nil name) plain ⟨name, known, rfl⟩
    (keeps.apart cell apart)
  exact ⟨covers, keeps.trans more⟩

/-! ### Resetting -/

/-- Where mappings lead to the end of a path but one, putting along it changes the last of them. -/
theorem putAlong_reached {inner : Nat}
    (leads : store.along (.object site) base = some (.object inner)) (within : store.isMapping inner = true) :
    putAlong store site cell (base ++ [last]) = store.put inner (.text last) cell := by
  induction base generalizing site with
  | nil =>
      cases leads
      rfl
  | cons part more ih =>
      rw [Store.along_cons] at leads
      obtain ⟨middle, step, further⟩ := Option.bind_eq_some_iff.mp leads
      have below : ∃ next, middle = .object next ∧ store.isMapping next = true := by
        cases more with
        | nil =>
            cases further
            exact ⟨inner, rfl, within⟩
        | cons other others =>
            rw [Store.along_cons] at further
            obtain ⟨_, goes, -⟩ := Option.bind_eq_some_iff.mp further
            obtain ⟨next, found⟩ := Store.next_mapping goes
            exact ⟨next, Store.mapping?_eq_some.mp found⟩
      obtain ⟨next, rfl, inside⟩ := below
      have found : below? store site (.text part) = some next := by
        rw [below?, show store.find? site (.text part) = some (.object next) from step]
        exact if_pos inside
      rw [List.cons_append, putAlong, found]
      · exact ih further
      · exact List.append_ne_nil_of_right_ne_nil more (List.cons_ne_nil last [])

/-- The names without one. -/
def without (modified : List Key) (name : String) : List Key :=
  modified.filter fun other => !other.same (.text name)

theorem mem_without {modified : List Key} {other : String} (known : Key.text other ∈ modified)
    (different : other ≠ name) : Key.text other ∈ without modified name := by
  refine List.mem_filter.mpr ⟨known, ?_⟩
  have apart : (Key.text other).same (.text name) = false :=
    beq_eq_false_iff_ne.mpr fun same => different (Face.text.inj same)
  rw [apart]
  rfl

theorem without_note (modified : List Key) (name : String) :
    without (note modified (.text name)) name = without modified name := by
  unfold note without
  split
  case isTrue => rfl
  case isFalse => simp [Key.sameSelf]

/-- A name is forgotten that another one begins. -/
theorem Covered.forget {other : String} (covered : live.Covered) (known : Key.text other ∈ live.modified)
    (different : other ≠ name) (begins : parts other <+: parts name) :
    Covered { live with modified := without live.modified name } ∧
      ∀ cell, live.Apart cell → Apart { live with modified := without live.modified name } cell := by
  have still : Key.text other ∈ without live.modified name := mem_without known different
  have touched {path : List String} (touched : live.Touched path) :
      Touched { live with modified := without live.modified name } path := by
    obtain ⟨title, noted, starts⟩ := touched
    by_cases same : title = name
    · subst same
      exact ⟨other, still, begins.trans starts⟩
    · exact ⟨title, mem_without noted same, starts⟩
  refine ⟨⟨covered.tidy, covered.root, covered.roomy, fun one two site mapping here there => ?_, fun path => ?_⟩,
    fun cell apart => ⟨apart.held, fun path way site mapping leads there => ?_⟩⟩
  · exact (covered.alone one two site mapping here there).imp_right touched
  · rcases covered.told path with known | alike | opens
    · exact .inl (touched known)
    · exact .inr (.inl alike)
    · obtain ⟨title, noted, starts⟩ := opens.noted
      by_cases same : title = name
      · subst same
        rcases List.prefix_or_prefix_of_prefix starts begins with shorter | longer
        · exact .inr (.inr ⟨opens.mapping, opens.lacks, other, still, shorter⟩)
        · exact .inl ⟨other, still, longer⟩
      · exact .inr (.inr ⟨opens.mapping, opens.lacks, title, mem_without noted same, starts⟩)
  · exact touched (apart.touched path way site mapping leads there)

/-- The settings after something is put under a name that is forgotten. -/
def restored (live : Live) (grown : Store) (site : Nat) (last : String) (cell : Cell) (name : String) : Live :=
  { live with store := grown.put site (.text last) cell, modified := without live.modified name }

/-- A document comes to the store, all of it at new sites, and is to be put under a name for which the settings
are as at first all along, but for what stands there. -/
structure Restores (live : Live) (grown : Store) (placed : Document) (name : String) (base : List String)
    (last : String) (site : Nat) : Prop where
  added : live.store.Added IsPlain live.store.newSite grown
  stands : grown.Stands placed
  single : placed.IsSingle
  new : ∀ mark ∈ placed.marks, live.store.newSite ≤ mark
  held : grown.Holds placed.cell
  usual : find? (.dict defaults) (parts name) = some placed.value
  spells : parts name = base ++ [last]
  reaches : live.reach base = some (.object site)
  mapping : live.store.isMapping site = true
  untouched : ¬ live.Touched base

namespace Restores

variable {grown : Store}

/-- Other names tell of what is elsewhere. -/
theorem touched_elsewhere (apart : ¬ (parts name <+: way)) (touched : live.Touched way) :
    (live.restored grown site last placed.cell name).Touched way := by
  obtain ⟨title, known, begins⟩ := touched
  exact ⟨title, mem_without known fun same => apart (same ▸ begins), begins⟩

variable (restores : Restores live grown placed name base last site)

include restores

theorem sole (covered : live.Covered) (leads : live.reach way = some (.object site)) : way = base :=
  (covered.alone base way site restores.mapping restores.reaches leads).elim Eq.symm
    fun touched => absurd touched restores.untouched

theorem plain : IsPlain last :=
  (defaults_bare.find? restores.usual).2 last (restores.spells ▸ List.mem_append_right _ List.mem_cons_self)

theorem still_stands : (live.restored grown site last placed.cell name).store.Stands placed :=
  restores.stands.put_apart fun inside =>
    absurd (isMapping_held restores.mapping) (Nat.not_lt.mpr (restores.new site inside))

theorem isMapping {other : Nat} (inside : live.store.Holds (.object other)) :
    (live.restored grown site last placed.cell name).store.isMapping other = live.store.isMapping other :=
  (Store.isMapping_put ..).trans (restores.added.isMapping inside)

variable (covered : live.Covered)

include covered

/-- Elsewhere, all is as it was. -/
theorem elsewhere (apart : ¬ (parts name <+: way)) :
    (live.restored grown site last placed.cell name).reach way = live.reach way := by
  have before := covered.reach_added restores.added
  refine (Store.along_put_same fun begun leads begins => apart ?_).trans (before way)
  rw [restores.spells]
  exact restores.sole covered ((before begun).symm.trans leads) ▸ begins

/-- What is not below the document leads where it led. -/
theorem along_apart (apart : live.Apart cell) (path : List String) :
    (live.restored grown site last placed.cell name).store.along cell path = live.store.along cell path := by
  have before := restores.added.along covered.tidy apart.held
  refine (Store.along_put_same fun begun leads _ => restores.untouched ?_).trans (before path)
  exact apart.touched begun base site restores.mapping ((before begun).symm.trans leads) restores.reaches

/-- Under the name is the document. -/
theorem below (rest : List String) :
    (live.restored grown site last placed.cell name).reach (parts name ++ rest) =
      (live.restored grown site last placed.cell name).store.along placed.cell rest := by
  have there : (live.restored grown site last placed.cell name).reach base = some (.object site) := by
    refine (restores.elsewhere covered fun longer => ?_).trans restores.reaches
    have lengths := (restores.spells ▸ longer).length_le
    simp at lengths
  have inside : grown.isMapping site = true :=
    (restores.added.isMapping (isMapping_held restores.mapping)).trans restores.mapping
  have here : (live.restored grown site last placed.cell name).reach (parts name) = some placed.cell := by
    rw [restores.spells]
    refine (Store.along_further there [last]).trans ((Store.along_single _ _ _).trans ?_)
    exact Store.find?_put_same inside (.text last) placed.cell
  exact Store.along_further here rest

theorem below_new {other : Nat} (begins : parts name <+: way)
    (leads : (live.restored grown site last placed.cell name).reach way = some (.object other)) :
    live.store.newSite ≤ other := by
  obtain ⟨rest, rfl⟩ := begins
  rw [restores.below covered] at leads
  exact restores.new other (reach_mark (restores.still_stands) leads)

theorem elsewhere_old {other : Nat} (apart : ¬ (parts name <+: way))
    (leads : (live.restored grown site last placed.cell name).reach way = some (.object other)) :
    other < live.store.newSite :=
  covered.held ((restores.elsewhere covered apart).symm.trans leads)

theorem apart (own : live.Apart cell) : (live.restored grown site last placed.cell name).Apart cell := by
  refine ⟨own.held.grows ?_, fun path way other within leads there => ?_⟩
  · exact Nat.le_trans restores.added.grows (Nat.le_of_eq (Store.newSite_put ..).symm)
  · rw [restores.along_apart covered own] at leads
    have old : live.store.Holds (.object other) := covered.tidy.along own.held leads
    by_cases begins : parts name <+: way
    · exact absurd old (Nat.not_lt.mpr (restores.below_new covered begins there))
    · rw [restores.elsewhere covered begins] at there
      rw [restores.isMapping old] at within
      exact touched_elsewhere begins (own.touched path way other within leads there)

theorem covers : (live.restored grown site last placed.cell name).Covered := by
  have added := restores.added
  refine ⟨(added.tidy covered.tidy).put restores.plain restores.held, ?_, ?_,
    fun one two other within here there => ?_, fun path => ?_⟩
  · exact (restores.isMapping (isMapping_held covered.root)).trans covered.root
  · exact Nat.le_trans covered.roomy (Nat.le_trans added.grows (Nat.le_of_eq (Store.newSite_put ..).symm))
  · -- New mappings stand under the name, the others elsewhere.
    by_cases first : parts name <+: one <;> by_cases second : parts name <+: two
    · obtain ⟨rest, rfl⟩ := first
      obtain ⟨more, rfl⟩ := second
      rw [restores.below covered] at here there
      exact .inl (congrArg _ (single_path (restores.still_stands) restores.single here there))
    · exact absurd (restores.elsewhere_old covered second there)
        (Nat.not_lt.mpr (restores.below_new covered first here))
    · exact absurd (restores.elsewhere_old covered first here)
        (Nat.not_lt.mpr (restores.below_new covered second there))
    · have old := restores.elsewhere_old covered first here
      rw [restores.elsewhere covered first] at here
      rw [restores.elsewhere covered second] at there
      rw [restores.isMapping old] at within
      exact (covered.alone one two other within here there).imp_right (touched_elsewhere first)
  · by_cases begins : parts name <+: path
    · obtain ⟨rest, rfl⟩ := begins
      have bare := (defaults_bare.find? restores.usual).1
      rw [restores.below covered, find?_append, restores.usual]
      exact .inr (.inl (stands_matches (restores.still_stands) bare rest))
    · refine covered.told_kept (restores.elsewhere covered begins)
        (fun other leads => restores.isMapping (covered.held leads)) (touched_elsewhere begins) fun opens => ?_
      obtain ⟨title, known, starts⟩ := opens.noted
      refine ⟨title, mem_without known fun alike => ?_, starts⟩
      -- On the way to the name there were mappings at first.
      subst alike
      obtain ⟨more, longer⟩ := starts
      cases more with
      | nil => exact begins (longer ▸ (List.append_nil path).symm ▸ List.prefix_rfl)
      | cons part others =>
          obtain ⟨entries, usual⟩ := find?_mapping (longer ▸ restores.usual)
          exact opens.lacks entries usual

end Restores

/-- A document that is new to the settings is put under a name, which is forgotten because another touched name
begins it. -/
theorem Covered.resets_within {grown : Store} {other : String} (covered : live.Covered)
    (added : live.store.Added IsPlain start grown) (held : grown.Holds placed.cell) (stands : grown.Stands placed)
    (new : ∀ mark ∈ placed.marks, live.store.newSite ≤ mark) (plain : ∀ part ∈ parts name, IsPlain part)
    (known : Key.text other ∈ live.modified) (different : other ≠ name) (begins : parts other <+: parts name) :
    let changed := Live.set { live with store := grown } name placed.cell
    Covered { changed with modified := without changed.modified name } ∧
      ∀ cell, live.Apart cell → Apart { changed with modified := without changed.modified name } cell := by
  intro changed
  obtain ⟨bigger, keeps⟩ := covered.added added
  have apart : Apart { live with store := grown } placed.cell := by
    refine ⟨held, fun path way site mapping leads there => ?_⟩
    have later := new site (reach_mark stands leads)
    have old := covered.held ((covered.reach_added added way).symm.trans there)
    exact absurd old (Nat.not_lt.mpr later)
  obtain ⟨after, more⟩ := bigger.sets apart plain
  obtain ⟨last, rest⟩ := after.forget (more.noted _ known) different begins
  exact ⟨last, fun cell own => rest cell (more.apart cell (keeps.apart cell own))⟩

/-- Before a first setting stands a mapping, if no touched name begins the way to it. -/
theorem Covered.stands_first (covered : live.Covered) (found : find? (.dict defaults) (base ++ [last]) = some value)
    (untouched : ¬ live.Touched base) :
    ∃ site, live.reach base = some (.object site) ∧ live.store.isMapping site = true := by
  obtain ⟨entries, usual⟩ := find?_mapping found
  rcases covered.told base with touched | alike | opens
  · exact absurd touched untouched
  · rw [usual] at alike
    generalize there : live.reach base = leads at alike
    cases alike with
    | mapping mapping => exact ⟨_, rfl, mapping⟩
    | @scalar key _ same => cases key <;> cases same
  · exact absurd usual (opens.lacks entries)

/-- Where mappings lead to the end of a path but one, setting the name changes the last of them. -/
theorem set_reached {grown : Store} (added : live.store.Added IsPlain start grown) (covered : live.Covered)
    (spells : parts name = base ++ [last]) (reaches : live.reach base = some (.object site))
    (mapping : live.store.isMapping site = true) :
    let changed := Live.set { live with store := grown } name cell
    { changed with modified := without changed.modified name } = live.restored grown site last cell name := by
  have leads := (covered.reach_added added base).trans reaches
  have inside := (added.isMapping (isMapping_held mapping)).trans mapping
  have puts : putAlong grown live.root cell (parts name) = grown.put site (.text last) cell := by
    rw [spells]
    exact putAlong_reached leads inside
  change Live.mk (putAlong grown live.root cell (parts name)) live.root (without (note live.modified (.text name)) name) = _
  rw [without_note, puts]
  rfl

theorem Covered.resets (covered : live.Covered) (name : String) :
    (live.reset name).Covered ∧ ∀ cell, live.Apart cell → (live.reset name).Apart cell := by
  unfold Live.reset
  cases found : Settings.find? (.dict defaults) (parts name) with
  | none => exact ⟨covered, fun _ own => own⟩
  | some value =>
      obtain ⟨bare, plain⟩ := defaults_bare.find? found
      obtain ⟨added, held, -⟩ := live.store.bring_added bare.document
      obtain ⟨placed, cell, comes⟩ := live.store.bring_placed (Document.ofValue_single value)
      have told : placed.value = value := comes.told.trans (Document.value_ofValue value)
      have same : (live.bring (.ofValue value)).2 = placed.cell := cell
      rw [cell] at held
      dsimp only
      rw [same]
      by_cases begun : ∃ other, Key.text other ∈ live.modified ∧ other ≠ name ∧ parts other <+: parts name
      · obtain ⟨other, known, different, begins⟩ := begun
        exact covered.resets_within added held comes.stands comes.new plain known different begins
      · obtain ⟨base, last, spells⟩ := (List.eq_nil_or_concat' (parts name)).resolve_left (parts_ne_nil name)
        have untouched : ¬ live.Touched base := by
          rintro ⟨other, known, begins⟩
          refine begun ⟨other, known, fun same => ?_, spells ▸ begins.trans (List.prefix_append base [last])⟩
          have longer := (spells ▸ same ▸ begins).length_le
          simp at longer
        obtain ⟨site, reaches, mapping⟩ := covered.stands_first (spells ▸ found) untouched
        have restores : Restores live (live.store.bring (.ofValue value)).1 placed name base last site :=
          ⟨added, comes.stands, comes.single, comes.new, held, told.symm ▸ found, spells, reaches, mapping, untouched⟩
        have whole : _ = live.restored _ site last placed.cell name :=
          set_reached added covered spells reaches mapping
        exact whole ▸ ⟨restores.covers covered, fun _ own => restores.apart covered own⟩

/-! ### What a user does -/

/-- A scalar, or what names lead to from an object of the user. -/
def IsOwn (live : Live) (own : List Nat) (cell : Cell) : Prop :=
  (∃ key, cell = .scalar key) ∨ ∃ site ∈ own, ∃ path, live.store.along (.object site) path = some cell

theorem IsOwn.of_mem (live : Live) (mine : site ∈ own) : live.IsOwn own (.object site) :=
  .inr ⟨site, mine, [], rfl⟩

/-- Settings after what a user did to them, who has objects of his own at these sites. What he gives is his own, but
it may stand in many places, and he may change it afterwards. -/
inductive Used : Live → List Nat → Prop where
  | start : Used initial []
  | made {live : Live} {own : List Nat} {object : Object} (used : Used live own)
      (fits : Store.Fits IsPlain (live.IsOwn own) object) :
      Used { live with store := live.store.add object } (live.store.newSite :: own)
  | changed {live : Live} {own : List Nat} {site : Nat} {key : String} {cell : Cell} (used : Used live own)
      (mine : site ∈ own) (plain : IsPlain key) (held : live.IsOwn own cell) : Used (live.write site key cell) own
  | loaded {live : Live} {own : List Nat} {cell : Cell} (used : Used live own) (held : live.IsOwn own cell) (room : Nat) :
      Used (live.loadCell room cell).live own
  | set {live : Live} {own : List Nat} {cell : Cell} {name : String} (used : Used live own) (held : live.IsOwn own cell)
      (plain : ∀ part ∈ parts name, IsPlain part) : Used (live.set name cell) own
  | reset {live : Live} {own : List Nat} (used : Used live own) (name : String) : Used (live.reset name) own
  | resetAll {live : Live} {own : List Nat} (used : Used live own) : Used live.resetAll own

/-- All that comes with a document is made by the user, object after object. -/
theorem Used.added {grown : Store} (used : Used live own)
    (added : live.store.Added IsPlain live.store.newSite grown) :
    ∃ more, Used { live with store := grown } (more ++ own) ∧
      ∀ site, live.store.newSite ≤ site → site < grown.newSite → site ∈ more := by
  induction added with
  | refl => exact ⟨[], used, fun site above below => absurd below (Nat.not_lt.mpr above)⟩
  | @add after object added known ih =>
      obtain ⟨more, before, mine⟩ := ih
      refine ⟨after.newSite :: more, before.made (known.mono fun cell offers => ?_), fun site above below => ?_⟩
      · cases cell with
        | scalar key => exact .inl ⟨key, rfl⟩
        | object site => exact .of_mem _ (List.mem_append_left _ (mine site offers.2 offers.1))
      · rw [Store.newSite_add] at below
        rcases Nat.lt_succ_iff_lt_or_eq.mp below with less | rfl
        · exact List.mem_cons_of_mem _ (mine site above less)
        · exact List.mem_cons_self

/-- So a user loads documents too, in which a mapping may stand in many places. -/
theorem Used.loadDocument {document : Document} (used : Used live own) (named : document.Named IsPlain) (room : Nat) :
    ∃ more, Used (live.loadDocument room document).live (more ++ own) := by
  obtain ⟨added, held, above⟩ := live.store.bring_added named
  obtain ⟨more, brought, mine⟩ := used.added added
  have theirs (cell : Cell) (inside : (live.store.bring document).1.Holds cell) (new : Store.From live.store.newSite cell) :
      IsOwn { live with store := (live.store.bring document).1 } (more ++ own) cell := by
    cases cell with
    | scalar key => exact .inl ⟨key, rfl⟩
    | object site => exact .of_mem _ (List.mem_append_left _ (mine site new inside))
  exact ⟨more, brought.loaded (theirs _ held above) room⟩

/-- Settings are covered, and the objects of the user stand apart from what is not touched. -/
structure Safe (live : Live) (own : List Nat) : Prop where
  covered : live.Covered
  apart : ∀ site ∈ own, live.Apart (.object site)

namespace Safe

variable {key : String} {after : Live}

theorem held (safe : Safe live own) (held : live.IsOwn own cell) : live.Apart cell := by
  rcases held with ⟨key, rfl⟩ | ⟨site, mine, path, leads⟩
  · exact .scalar live key
  · have apart := safe.apart site mine
    exact apart.further (safe.covered.tidy.along apart.held leads) leads

theorem keeps (safe : Safe live own) (covered : after.Covered) (apart : ∀ cell, live.Apart cell → after.Apart cell) :
    Safe after own :=
  ⟨covered, fun site mine => apart _ (safe.apart site mine)⟩

theorem made {object : Object} (safe : Safe live own) (fits : Store.Fits IsPlain (live.IsOwn own) object) :
    Safe { live with store := live.store.add object } (live.store.newSite :: own) := by
  have known : Store.Fits IsPlain live.store.Holds object := fits.mono fun cell held => (safe.held held).held
  have added : live.store.Added IsPlain 0 (live.store.add object) := .add .refl (known.mono fun cell held => ⟨held, ?_⟩)
  · obtain ⟨covered, keeps⟩ := safe.covered.added added
    refine ⟨covered, List.forall_mem_cons.mpr ⟨⟨?_, fun path way site mapping leads there => ?_⟩,
      fun site mine => keeps.apart _ (safe.apart site mine)⟩⟩
    · exact Nat.lt_of_lt_of_eq (Nat.lt_succ_self _) (Store.newSite_add ..).symm
    · cases path with
      | nil =>
          cases leads
          have old := safe.covered.held ((safe.covered.reach_added added way).symm.trans there)
          exact absurd old (Nat.lt_irrefl _)
      | cons name rest =>
          rw [Store.along_cons] at leads
          obtain ⟨inner, step, further⟩ := Option.bind_eq_some_iff.mp leads
          change Entries.find? ((live.store.add object).entries live.store.newSite) _ = _ at step
          have here := Store.object?_add_new live.store object
          cases fits with
          | list held =>
              rw [Store.entries, here] at step
              cases step
          | mapping keys named held =>
              rw [Store.entries_of_object? here] at step
              obtain ⟨present, member⟩ := Entries.find?_mem step
              exact (keeps.apart inner (safe.held (held _ member))).touched rest way site mapping further there
  · cases cell with
    | scalar => trivial
    | object site => exact Nat.zero_le site

theorem changed (safe : Safe live own) (mine : site ∈ own) (plain : IsPlain key) (held : live.IsOwn own cell) :
    Safe (live.write site key cell) own := by
  by_cases mapping : live.store.isMapping site = true
  · have told (way : List String) (leads : live.reach way = some (.object site)) : live.Touched (way ++ [key]) :=
      ((safe.apart site mine).touched [] way site mapping rfl leads).ahead [key]
    obtain ⟨covered, keeps⟩ := safe.covered.write told (safe.held held) plain
    exact safe.keeps covered keeps.apart
  · rwa [write, Store.put_of_isMapping (Bool.eq_false_iff.mpr mapping)]

end Safe

theorem initial_safe : Safe initial [] :=
  ⟨(fresh_covered (Store.Tidy.empty IsPlain) (by decide)).1, List.forall_mem_nil _⟩

theorem Used.safe (used : Used live own) : Safe live own := by
  induction used with
  | start => exact initial_safe
  | made used fits ih => exact ih.made fits
  | changed used mine plain held ih => exact ih.changed mine plain held
  | loaded used held room ih =>
      obtain ⟨covered, keeps⟩ := ih.covered.loads (ih.held held) room
      exact ih.keeps covered keeps.apart
  | set used held plain ih =>
      obtain ⟨covered, keeps⟩ := ih.covered.sets (ih.held held) plain
      exact ih.keeps covered keeps.apart
  | reset used name ih =>
      obtain ⟨covered, apart⟩ := ih.covered.resets name
      exact ih.keeps covered apart
  | @resetAll live own used ih =>
      have added := (live.store.bring_added defaults_bare.document).1
      obtain ⟨covered, apart⟩ := fresh_covered ih.covered.tidy (Nat.le_trans ih.covered.roomy added.grows)
      exact ⟨covered, fun site mine => apart _ (ih.apart site mine).held⟩

/-- The mapping of a section is the settings' own, and is put under the name of another section. Then what is reset
there is told by no name, though it shows in the first section. -/
theorem handed_back_untold :
    let shared := initial.set "output" (initial.get "logging" (.scalar .null))
    let live := (shared.reset "output.directory").reset "output"
    live.modified = [] ∧ find? (.dict live.shown.tree) ["logging", "directory"] = some (.text "./output") ∧
      find? (.dict defaults) ["logging", "directory"] = none := by
  have output : parts "output" = ["output"] := parts_plain (by decide)
  have logging : parts "logging" = ["logging"] := parts_plain (by decide)
  have directory : parts "output.directory" = ["output", "directory"] :=
    parts_pair "output" "directory" (by decide) (by decide)
  simp only [Live.get, get?, Live.set, reset, output, logging, directory]
  exact ⟨rfl, rfl, rfl⟩

end ChipEight.Settings.Live
