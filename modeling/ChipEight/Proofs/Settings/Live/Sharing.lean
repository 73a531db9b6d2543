/-
This file follows changes of settings in which a mapping may stand in many places, because what the user gives
is put in place as it is. A mapping then stands in several places only where touched names tell of them all, and
where none does, the settings are as at first.
-/

import ChipEight.Proofs.Settings.Modified
import ChipEight.Proofs.Store.Adding
import ChipEight.Settings.Live
import ChipEight.Value.Depth

namespace ChipEight.Settings.Live

variable {live after : Live} {base path way rest : List String} {site inner start : Nat} {key name : String}
  {cell new : Cell} {store grown : Store} {value : Value}

/-! ### What is touched, and what stands apart -/

/-- What names lead to from the top. -/
def reach (live : Live) (path : List String) : Option Cell :=
  live.store.along (.object live.root) path

/-- A touched name begins the path. -/
def Touched (live : Live) (path : List String) : Prop :=
  ∃ name, Key.text name ∈ live.modified ∧ parts name <+: path

theorem Touched.further (touched : live.Touched path) (begins : path <+: way) : live.Touched way :=
  touched.imp fun _ known => ⟨known.1, known.2.trans begins⟩

theorem Touched.ahead (touched : live.Touched path) (rest : List String) : live.Touched (path ++ rest) :=
  touched.further (List.prefix_append path rest)

theorem Touched.kept (touched : live.Touched path) (keeps : ∀ key ∈ live.modified, key ∈ after.modified) :
    after.Touched path :=
  touched.imp fun _ known => ⟨keeps _ known.1, known.2⟩

/-- The mappings that names lead to from a cell stand in the settings only under touched names. -/
structure Apart (live : Live) (cell : Cell) : Prop where
  held : live.store.Holds cell
  touched : ∀ path way site, live.store.isMapping site = true → live.store.along cell path = some (.object site) →
    live.reach way = some (.object site) → live.Touched way

theorem Apart.further (apart : live.Apart cell) (held : live.store.Holds new)
    (leads : live.store.along cell path = some new) : live.Apart new where
  held := held
  touched rest way site mapping there :=
    apart.touched (path ++ rest) way site mapping ((Store.along_further leads rest).trans there)

/-- A mapping stands where a path leads, or it did, and now the path is touched. -/
structure Aimed (live : Live) (base : List String) (site : Nat) : Prop where
  mapping : live.store.isMapping site = true
  stands : live.reach base = some (.object site) ∨ live.Touched base ∧ live.Apart (.object site)

/-- There is nothing on both sides, or a mapping, or a scalar and its value. -/
inductive Matches (store : Store) : Option Cell → Option Value → Prop where
  | none : Matches store none none
  | mapping {site : Nat} {entries : Entries} (mapping : store.isMapping site = true) :
      Matches store (some (.object site)) (some (.dict entries))
  | scalar {key : Key} {value : Value} (same : key.toValue = value) : Matches store (some (.scalar key)) (some value)

theorem Matches.kept {found : Option Cell} {wanted : Option Value} (alike : Matches store found wanted)
    (keeps : ∀ site, found = some (.object site) → store.isMapping site = true → grown.isMapping site = true) :
    Matches grown found wanted := by
  cases alike with
  | none => exact .none
  | mapping mapping => exact .mapping (keeps _ rfl mapping)
  | scalar same => exact .scalar same

/-- There is a mapping where there was none at first, on the way to a touched name. -/
structure Opens (live : Live) (path : List String) : Prop where
  mapping : ∃ site, live.reach path = some (.object site) ∧ live.store.isMapping site = true
  lacks : ∀ entries, find? (.dict defaults) path ≠ some (.dict entries)
  noted : ∃ name, Key.text name ∈ live.modified ∧ path <+: parts name

/-- A mapping that stands in two places is touched in each of them, and what is not touched is as at first, but
for mappings on the way to touched names. -/
structure Covered (live : Live) : Prop where
  tidy : live.store.Tidy IsPlain
  root : live.store.isMapping live.root = true
  roomy : (Value.dict defaults).depth ≤ live.store.newSite
  alone : ∀ one two site, live.store.isMapping site = true → live.reach one = some (.object site) →
    live.reach two = some (.object site) → one = two ∨ live.Touched one
  told : ∀ path, live.Touched path ∨ Matches live.store (live.reach path) (find? (.dict defaults) path) ∨
    live.Opens path

/-- Names stay touched, what stood apart still does, and mappings stand where they stood. -/
structure Keeps (live after : Live) : Prop where
  noted : ∀ key ∈ live.modified, key ∈ after.modified
  apart : ∀ cell, live.Apart cell → after.Apart cell
  aimed : ∀ base site, live.Aimed base site → after.Aimed base site

theorem Keeps.refl (live : Live) : Keeps live live :=
  ⟨fun _ known => known, fun _ apart => apart, fun _ _ aimed => aimed⟩

theorem Keeps.trans {middle : Live} (first : Keeps live middle) (second : Keeps middle after) : Keeps live after :=
  ⟨fun key known => second.noted key (first.noted key known), fun cell apart => second.apart cell (first.apart cell apart),
    fun base site aimed => second.aimed base site (first.aimed base site aimed)⟩

theorem isMapping_held (mapping : store.isMapping site = true) : store.Holds (.object site) := by
  obtain ⟨entries, here⟩ := Store.isMapping_iff.mp mapping
  exact Store.site_lt here

namespace Covered

theorem held (covered : live.Covered) (leads : live.reach path = some cell) : live.store.Holds cell :=
  covered.tidy.along (isMapping_held covered.root) leads

/-- A mapping that a path leads to is aimed at. -/
theorem aimed (covered : live.Covered) : live.Aimed [] live.root :=
  ⟨covered.root, .inl rfl⟩

/-- Where a mapping stands to which a path was aimed, a name that is touched there is touched. -/
theorem under (covered : live.Covered) (aimed : live.Aimed base site) (touched : live.Touched (base ++ [key])) :
    ∀ way, live.reach way = some (.object site) → live.Touched (way ++ [key]) := by
  intro way leads
  rcases aimed.stands with stands | ⟨-, apart⟩
  · rcases covered.alone way base site aimed.mapping leads stands with rfl | known
    · exact touched
    · exact known.ahead [key]
  · exact (apart.touched [] way site aimed.mapping rfl leads).ahead [key]

/-- What is told of a path stays so where it leads as it did, as far as names stay touched. -/
theorem told_kept (covered : live.Covered) (same : after.reach path = live.reach path)
    (still : ∀ site, live.reach path = some (.object site) → after.store.isMapping site = live.store.isMapping site)
    (touched : live.Touched path → after.Touched path)
    (noted : live.Opens path → ∃ name, Key.text name ∈ after.modified ∧ path <+: parts name) :
    after.Touched path ∨ Matches after.store (after.reach path) (find? (.dict defaults) path) ∨ after.Opens path := by
  rw [same]
  rcases covered.told path with known | alike | opens
  · exact .inl (touched known)
  · exact .inr (.inl (alike.kept fun site leads => (still site leads).trans))
  · obtain ⟨site, leads, mapping⟩ := opens.mapping
    exact .inr (.inr ⟨⟨site, same.trans leads, (still site leads).trans mapping⟩, opens.lacks, noted opens⟩)

end Covered

theorem Aimed.inside (aimed : live.Aimed base site)
    (below : below? live.store site (.text key) = some inner) : live.Aimed (base ++ [key]) inner := by
  obtain ⟨present, found, same⟩ := Option.bind_eq_some_iff.mp below
  obtain ⟨rfl, mapping⟩ := Store.mapping?_eq_some.mp same
  have leads : live.store.along (.object site) [key] = some (.object inner) :=
    (Store.along_single _ _ _).trans found
  refine ⟨mapping, aimed.stands.imp (fun stands => ?_) fun ⟨touched, apart⟩ => ⟨touched.ahead [key], ?_⟩⟩
  · exact (Store.along_further stands [key]).trans leads
  · exact apart.further (isMapping_held mapping) leads

/-! ### Names that are noted, and objects that are added -/

theorem Covered.noted (covered : live.Covered) (noted : List Key) (keeps : ∀ key ∈ live.modified, key ∈ noted) :
    Covered { live with modified := noted } ∧ Keeps live { live with modified := noted } := by
  have touched {path : List String} (known : live.Touched path) : Touched { live with modified := noted } path :=
    known.kept keeps
  have apart {cell : Cell} (own : live.Apart cell) : Apart { live with modified := noted } cell :=
    ⟨own.held, fun path way site mapping leads there => touched (own.touched path way site mapping leads there)⟩
  refine ⟨⟨covered.tidy, covered.root, covered.roomy, fun one two site mapping here there => ?_, fun path => ?_⟩,
    keeps, fun _ => apart, fun base site aimed => ⟨aimed.mapping, ?_⟩⟩
  · exact (covered.alone one two site mapping here there).imp_right touched
  · refine covered.told_kept rfl (fun _ _ => rfl) touched fun opens => ?_
    exact opens.noted.imp fun _ known => ⟨keeps _ known.1, known.2⟩
  · exact aimed.stands.imp_right fun ⟨known, own⟩ => ⟨touched known, apart own⟩

theorem Covered.reach_added (covered : live.Covered) (added : live.store.Added IsPlain start grown) (path : List String) :
    reach { live with store := grown } path = live.reach path :=
  added.along covered.tidy (isMapping_held covered.root) path

theorem Covered.added (covered : live.Covered) (added : live.store.Added IsPlain start grown) :
    Covered { live with store := grown } ∧ Keeps live { live with store := grown } := by
  have same := covered.reach_added added
  have still {path : List String} {site : Nat} (leads : live.reach path = some (.object site)) :
      grown.isMapping site = live.store.isMapping site := added.isMapping (covered.held leads)
  have apart {cell : Cell} (own : live.Apart cell) : Apart { live with store := grown } cell := by
    refine ⟨own.held.grows added.grows, fun path way site mapping leads there => ?_⟩
    rw [same] at there
    refine own.touched path way site ((still there).symm.trans mapping) ?_ there
    exact (added.along covered.tidy own.held path).symm.trans leads
  refine ⟨⟨added.tidy covered.tidy, (added.isMapping (isMapping_held covered.root)).trans covered.root,
    Nat.le_trans covered.roomy added.grows, fun one two site mapping here there => ?_, fun path => ?_⟩,
    fun _ known => known, fun _ => apart, fun base site aimed => ⟨?_, ?_⟩⟩
  · rw [same] at here there
    exact covered.alone one two site ((still here).symm.trans mapping) here there
  · exact covered.told_kept (same path) (fun _ => still) (fun known => known) Opens.noted
  · exact (added.isMapping (isMapping_held aimed.mapping)).trans aimed.mapping
  · refine aimed.stands.imp (same base).trans fun ⟨known, own⟩ => ⟨known, apart own⟩

/-! ### Changes of a mapping -/

/-- The settings after something is put under a name of a mapping. -/
def write (live : Live) (site : Nat) (key : String) (new : Cell) : Live :=
  { live with store := live.store.put site (.text key) new }

section

variable (told : ∀ way, live.reach way = some (.object site) → live.Touched (way ++ [key]))

include told

/-- What is not touched is as it was. -/
theorem reach_write (untouched : ¬ live.Touched path) : (live.write site key new).reach path = live.reach path :=
  Store.along_put_same fun begun leads begins => untouched ((told begun leads).further begins)

variable (own : live.Apart new)

include own

theorem Apart.write (apart : live.Apart cell) : (live.write site key new).Apart cell := by
  refine ⟨apart.held.grows (Nat.le_of_eq (Store.newSite_put ..).symm), fun path way other mapping leads there => ?_⟩
  by_contra untouched
  rw [reach_write told untouched] at there
  rw [Live.write, Store.isMapping_put] at mapping
  rcases Store.along_put_cases leads with before | ⟨-, rest, -, -, before⟩
  · exact untouched (apart.touched path way other mapping before there)
  · exact untouched (own.touched rest way other mapping before there)

theorem Aimed.write (covered : live.Covered) {other : Nat} (aimed : live.Aimed base other) :
    (live.write site key new).Aimed base other := by
  refine ⟨(Store.isMapping_put ..).trans aimed.mapping, ?_⟩
  rcases aimed.stands with stands | ⟨touched, apart⟩
  case inr => exact .inr ⟨touched, own.write told apart⟩
  by_cases touched : live.Touched base
  case neg => exact .inl ((reach_write told touched).trans stands)
  have apart : live.Apart (.object other) := by
    refine ⟨isMapping_held aimed.mapping, fun path way site mapping leads there => ?_⟩
    have further := (Store.along_further stands path).trans leads
    rcases covered.alone way (base ++ path) site mapping there further with rfl | known
    · exact touched.ahead path
    · exact known
  exact .inr ⟨touched, own.write told apart⟩

theorem Covered.write (covered : live.Covered) (plain : IsPlain key) :
    (live.write site key new).Covered ∧ Keeps live (live.write site key new) := by
  refine ⟨⟨covered.tidy.put plain own.held, (Store.isMapping_put ..).trans covered.root, ?_,
    fun one two other mapping here there => ?_, fun path => ?_⟩,
    fun _ known => known, fun _ apart => own.write told apart, fun _ _ aimed => aimed.write told own covered⟩
  · exact Nat.le_trans covered.roomy (Nat.le_of_eq (Store.newSite_put ..).symm)
  · by_contra neither
    rw [not_or] at neither
    rw [reach_write told neither.2] at here
    rw [Live.write, Store.isMapping_put] at mapping
    rcases Store.along_put_cases there with before | ⟨-, rest, -, -, before⟩
    · exact (covered.alone one two other mapping here before).elim neither.1 neither.2
    · exact neither.2 (own.touched rest one other mapping before here)
  · by_cases touched : live.Touched path
    · exact .inl touched
    · exact covered.told_kept (reach_write told touched) (fun _ _ => Store.isMapping_put ..) (fun known => known)
        Opens.noted

end

/-! ### New mappings on the way to a name -/

theorem new_next (store : Store) (name : String) :
    (store.add (.mapping [])).next (.object store.newSite) name = none := by
  change Entries.find? ((store.add (.mapping [])).entries store.newSite) _ = _
  rw [Store.entries_of_object? (Store.object?_add_new store _)]
  rfl

theorem new_along (leads : (store.add (.mapping [])).along (.object store.newSite) path = some cell) :
    path = [] ∧ cell = .object store.newSite := by
  cases path with
  | nil => exact ⟨rfl, (Option.some.inj leads).symm⟩
  | cons name rest =>
      rw [Store.along_cons, new_next] at leads
      cases leads

theorem empty_added (store : Store) : store.Added IsPlain 0 (store.add (.mapping [])) :=
  .add .refl (.mapping List.nodup_nil (List.forall_mem_nil _) (List.forall_mem_nil _))

/-- The settings after a new empty mapping is put under a name of another one. -/
def opened (live : Live) (site : Nat) (key : String) : Live :=
  write { live with store := live.store.add (.mapping []) } site key (.object live.store.newSite)

section

/-- No mapping is where none is below a mapping. -/
theorem unmapped (stands : live.reach base = some (.object site)) (lacks : below? live.store site (.text key) = none)
    (leads : live.reach (base ++ [key]) = some (.object inner)) : live.store.isMapping inner = false := by
  have found : live.store.find? site (.text key) = some (.object inner) :=
    (Store.along_single _ _ _).symm.trans ((Store.along_further stands [key]).symm.trans leads)
  rw [below?, found] at lacks
  exact Bool.eq_false_iff.mpr fun within => nomatch (if_pos within).symm.trans lacks

/-- At first no mapping is there either, if it is not touched. -/
theorem usual_lacks (covered : live.Covered) (stands : live.reach base = some (.object site))
    (untouched : ¬ live.Touched (base ++ [key])) (lacks : below? live.store site (.text key) = none) (entries : Entries) :
    find? (.dict defaults) (base ++ [key]) ≠ some (.dict entries) := by
  intro usual
  rcases covered.told (base ++ [key]) with touched | alike | opens
  · exact untouched touched
  · rw [usual] at alike
    generalize there : live.reach (base ++ [key]) = found at alike
    cases alike with
    | mapping within =>
        exact nomatch (unmapped stands lacks there).symm.trans within
    | scalar same => rename_i scalar; cases scalar <;> cases same
  · exact opens.lacks entries usual

variable (covered : live.Covered)

include covered in
/-- What names lead to, they led to before, or it is the new mapping. -/
theorem along_opened (held : live.store.Holds cell) (inside : live.store.Holds (.object site))
    (leads : (live.opened site key).store.along cell path = some new) :
    live.store.along cell path = some new ∨
      new = .object live.store.newSite ∧ ∃ begun, path = begun ++ [key] ∧
        live.store.along cell begun = some (.object site) := by
  have added := empty_added live.store
  have before := added.along covered.tidy held
  rcases Store.along_put_cases leads with old | ⟨begun, rest, rfl, arrives, further⟩
  · exact .inl ((before path).symm.trans old)
  · obtain ⟨rfl, rfl⟩ := new_along further
    rcases Store.along_put_cases arrives with old | ⟨-, rest, -, -, again⟩
    · exact .inr ⟨rfl, begun, rfl, (before begun).symm.trans old⟩
    · cases (new_along again).2
      exact absurd inside (Nat.lt_irrefl _)

theorem opened_isMapping (site : Nat) (key : String) (held : live.store.Holds (.object inner)) :
    (live.opened site key).store.isMapping inner = live.store.isMapping inner :=
  (Store.isMapping_put ..).trans ((empty_added live.store).isMapping held)

variable (mapping : live.store.isMapping site = true) (stands : live.reach base = some (.object site))
  (untouched : ¬ live.Touched (base ++ [key]))

include covered mapping stands untouched

/-- Where no name tells of a mapping, it stands nowhere else. -/
theorem sole (leads : live.reach way = some (.object site)) : way = base :=
  (covered.alone base way site mapping stands leads).elim Eq.symm
    fun touched => absurd (touched.ahead [key]) untouched

theorem reach_opened (apart : ¬ (base ++ [key] <+: path)) : (live.opened site key).reach path = live.reach path := by
  have before := covered.reach_added (empty_added live.store)
  refine (Store.along_put_same fun begun leads begins => apart ?_).trans (before path)
  exact sole covered mapping stands untouched ((before begun).symm.trans leads) ▸ begins

theorem opened_here : (live.opened site key).reach (base ++ [key]) = some (.object live.store.newSite) := by
  have there : (live.opened site key).reach base = some (.object site) :=
    (reach_opened covered mapping stands untouched fun longer => by
      have lengths := longer.length_le
      simp at lengths).trans stands
  refine (Store.along_further there [key]).trans ((Store.along_single _ _ _).trans ?_)
  refine Store.find?_put_same ?_ (.text key) _
  exact ((empty_added live.store).isMapping (isMapping_held mapping)).trans mapping

theorem opened_beyond (name : String) (rest : List String) :
    (live.opened site key).reach (base ++ [key] ++ name :: rest) = none := by
  have here := opened_here covered mapping stands untouched
  have different : live.store.newSite ≠ site := Nat.ne_of_gt (isMapping_held mapping)
  have none : (live.opened site key).store.next (.object live.store.newSite) name = none :=
    (Store.next_put_other fun same => absurd (Cell.object.inj same) different).trans (new_next live.store name)
  refine (Store.along_further here (name :: rest)).trans ?_
  rw [Store.along_cons, none]
  rfl

theorem Apart.opened (own : live.Apart cell) : (live.opened site key).Apart cell := by
  have inside := isMapping_held mapping
  refine ⟨own.held.grows ?_, fun path way other within leads there => ?_⟩
  · exact Nat.le_trans (Store.add_grows ..) (Nat.le_of_eq (Store.newSite_put ..).symm)
  · rcases along_opened covered own.held inside leads with before | ⟨-, begun, -, arrives⟩
    · have held := covered.tidy.along own.held before
      rw [opened_isMapping site key held] at within
      rcases along_opened covered (isMapping_held covered.root) inside there with old | ⟨same, -⟩
      · exact own.touched path way other within before old
      · cases same
        exact absurd held (Nat.lt_irrefl _)
    · exact absurd ((own.touched begun base site mapping arrives stands).ahead [key]) untouched

variable (lacks : below? live.store site (.text key) = none)

include lacks

theorem Aimed.opened {other : Nat} {toward : List String} (aimed : live.Aimed toward other) :
    (live.opened site key).Aimed toward other := by
  refine ⟨(opened_isMapping site key (isMapping_held aimed.mapping)).trans aimed.mapping, ?_⟩
  refine aimed.stands.imp (fun leads => ?_) fun ⟨touched, apart⟩ =>
    ⟨touched, apart.opened covered mapping stands untouched⟩
  by_cases begins : base ++ [key] <+: toward
  · obtain ⟨rest, rfl⟩ := begins
    obtain ⟨middle, there, further⟩ := Option.bind_eq_some_iff.mp ((Store.along_append ..).symm.trans leads)
    cases rest with
    | nil =>
        cases further
        exact nomatch (unmapped stands lacks there).symm.trans aimed.mapping
    | cons name more =>
        rw [Store.along_cons] at further
        obtain ⟨last, step, -⟩ := Option.bind_eq_some_iff.mp further
        obtain ⟨own, same⟩ := Store.next_mapping step
        obtain ⟨rfl, within⟩ := Store.mapping?_eq_some.mp same
        exact nomatch (unmapped stands lacks there).symm.trans within
  · exact (reach_opened covered mapping stands untouched begins).trans leads

theorem Covered.opened (plain : IsPlain key) (noted : ∃ name, Key.text name ∈ live.modified ∧ base ++ [key] <+: parts name) :
    (live.opened site key).Covered ∧ Keeps live (live.opened site key) := by
  have added := empty_added live.store
  have inside := isMapping_held mapping
  have here := opened_here covered mapping stands untouched
  have grown : (live.opened site key).store.newSite = live.store.newSite + 1 :=
    (Store.newSite_put ..).trans (Store.newSite_add ..)
  have new : (live.opened site key).store.isMapping live.store.newSite = true :=
    (Store.isMapping_put ..).trans (Store.isMapping_of_object? (Store.object?_add_new live.store _))
  refine ⟨⟨(added.tidy covered.tidy).put plain ?_, ?_, ?_, fun one two other within first second => ?_, fun path => ?_⟩,
    fun _ known => known, fun _ own => own.opened covered mapping stands untouched,
    fun _ _ aimed => aimed.opened covered mapping stands untouched lacks⟩
  · exact Nat.lt_of_lt_of_eq (Nat.lt_succ_self _) (Store.newSite_add ..).symm
  · exact (opened_isMapping site key (isMapping_held covered.root)).trans covered.root
  · exact Nat.le_trans covered.roomy (Nat.le_trans (Nat.le_succ _) (Nat.le_of_eq grown.symm))
  · -- The new mapping stands in one place, and other mappings stand where they stood.
    have top := isMapping_held covered.root
    rcases along_opened covered top inside first with old | ⟨same, begun, rfl, arrives⟩
    · have held := covered.held old
      rcases along_opened covered top inside second with before | ⟨same, -⟩
      · exact covered.alone one two other ((opened_isMapping site key held).symm.trans within) old before
      · cases same
        exact absurd held (Nat.lt_irrefl _)
    · cases same
      rcases along_opened covered top inside second with before | ⟨-, other, rfl, reaches⟩
      · exact absurd (covered.held before) (Nat.lt_irrefl _)
      · rw [sole covered mapping stands untouched arrives, sole covered mapping stands untouched reaches]
        exact .inl rfl
  · by_cases begins : base ++ [key] <+: path
    · obtain ⟨rest, rfl⟩ := begins
      have usual := usual_lacks covered stands untouched lacks
      cases rest with
      | nil =>
          rw [List.append_nil]
          exact .inr (.inr ⟨⟨_, here, new⟩, usual, noted⟩)
      | cons name more =>
          have none : find? (.dict defaults) (base ++ [key] ++ name :: more) = none := by
            rw [← Option.not_isSome_iff_eq_none]
            intro found
            obtain ⟨value, leads⟩ := Option.isSome_iff_exists.mp found
            obtain ⟨entries, dict⟩ := find?_mapping leads
            exact usual entries dict
          rw [opened_beyond covered mapping stands untouched, none]
          exact .inr (.inl .none)
    · exact covered.told_kept (reach_opened covered mapping stands untouched begins)
        (fun _ leads => opened_isMapping site key (covered.held leads)) (fun known => known) Opens.noted

end

/-! ### Setting -/

/-- A mapping that is put in place on the way to a noted name. -/
theorem Covered.opens (covered : live.Covered) (aimed : live.Aimed base site) (plain : IsPlain key)
    (lacks : below? live.store site (.text key) = none)
    (noted : ∃ name, Key.text name ∈ live.modified ∧ base ++ [key] <+: parts name) :
    (live.opened site key).Covered ∧ Keeps live (live.opened site key) ∧
      (live.opened site key).Aimed (base ++ [key]) live.store.newSite := by
  have new : (live.opened site key).store.isMapping live.store.newSite = true :=
    (Store.isMapping_put ..).trans (Store.isMapping_of_object? (Store.object?_add_new live.store _))
  by_cases touched : live.Touched (base ++ [key])
  case pos =>
    have added := empty_added live.store
    obtain ⟨bigger, keeps⟩ := covered.added added
    have own : Apart { live with store := live.store.add (.mapping []) } (.object live.store.newSite) := by
      refine ⟨Nat.lt_of_lt_of_eq (Nat.lt_succ_self _) (Store.newSite_add ..).symm, ?_⟩
      intro path way other within leads there
      cases (new_along leads).2
      exact absurd (covered.held ((covered.reach_added added way).symm.trans there)) (Nat.lt_irrefl _)
    have told := bigger.under (keeps.aimed base site aimed) touched
    obtain ⟨covers, more⟩ := bigger.write told own plain
    exact ⟨covers, keeps.trans more, new, .inr ⟨touched, own.write told own⟩⟩
  case neg =>
    have stands : live.reach base = some (.object site) :=
      aimed.stands.resolve_right fun known => touched (known.1.ahead [key])
    obtain ⟨covers, keeps⟩ := covered.opened aimed.mapping stands touched lacks plain noted
    exact ⟨covers, keeps, new, .inl (opened_here covered aimed.mapping stands touched)⟩

theorem Covered.putsAlong (covered : live.Covered) (aimed : live.Aimed base site) (filled : path ≠ [])
    (plain : ∀ part ∈ path, IsPlain part) (noted : ∃ name, Key.text name ∈ live.modified ∧ parts name = base ++ path)
    (own : live.Apart cell) :
    Covered { live with store := putAlong live.store site cell path } ∧
      Keeps live { live with store := putAlong live.store site cell path } := by
  induction path generalizing live base site with
  | nil => exact absurd rfl filled
  | cons part more ih =>
      obtain ⟨here, behind⟩ := List.forall_mem_cons.mp plain
      obtain ⟨name, known, spells⟩ := noted
      cases more with
      | nil =>
          exact covered.write (covered.under aimed ⟨name, known, spells ▸ List.prefix_rfl⟩) own here
      | cons next others =>
          have further : next :: others ≠ [] := List.cons_ne_nil next others
          have longer : parts name = base ++ [part] ++ next :: others := by rw [spells, List.append_assoc]; rfl
          cases below : below? live.store site (.text part) with
          | some inner =>
              rw [Live.putAlong, below]
              · exact ih covered (aimed.inside below) further behind ⟨name, known, longer⟩ own
              · exact further
          | none =>
              obtain ⟨covers, keeps, aims⟩ := covered.opens aimed here below
                ⟨name, known, longer ▸ List.prefix_append _ _⟩
              obtain ⟨last, more⟩ := ih covers aims further behind ⟨name, keeps.noted _ known, longer⟩
                (keeps.apart cell own)
              rw [Live.putAlong, below]
              · exact ⟨last, keeps.trans more⟩
              · exact further

/-! ### Merging -/

/-- What merges a mapping that stands apart into one to which a path is aimed, and leaves the settings covered. -/
def IsCovering (inner : Key → Nat → Nat → Live → Merged) : Prop :=
  ∀ (title : Key) (base : List String) (source target : Nat) (live : Live), Leads title base → live.Covered →
    live.Apart (.object source) → live.Aimed base target →
    (inner title source target live).live.Covered ∧ Keeps live (inner title source target live).live

section

variable {merging : Key → Nat → Nat → Live → Merged} {title : Key} {source target : Nat}

theorem mergeEntry_covered (covering : IsCovering merging) (leads : Leads title base) (covered : live.Covered)
    (plain : IsPlain key) (own : live.Apart cell) (aimed : live.Aimed base target) :
    (mergeEntry merging title (.text key) cell target live).live.Covered ∧
      Keeps live (mergeEntry merging title (.text key) cell target live).live := by
  obtain ⟨name, named, given, spells⟩ := below_leads leads plain
  unfold mergeEntry
  rw [named]
  dsimp only
  split
  case h_1 inner old mapping below =>
    obtain ⟨rfl, -⟩ := Store.mapping?_eq_some.mp mapping
    exact covering (.text name) (base ++ [key]) inner old live (spells ▸ .name given) covered own (aimed.inside below)
  case h_2 =>
    obtain ⟨noted, keeps⟩ := covered.noted (note live.modified (.text name)) fun _ => mem_note
    have touched : Touched { live with modified := note live.modified (.text name) } (base ++ [key]) :=
      ⟨name, note_mem live.modified name, spells ▸ List.prefix_rfl⟩
    have told := noted.under (keeps.aimed base target aimed) touched
    obtain ⟨covers, more⟩ := noted.write told (keeps.apart cell own) plain
    exact ⟨covers, keeps.trans more⟩

/-- What stands in a mapping that stands apart does so too. -/
theorem Apart.entry (covered : live.Covered) (own : live.Apart (.object source)) {title : Key}
    (member : (title, cell) ∈ live.store.entries source) :
    ∃ name, title = .text name ∧ IsPlain name ∧ live.Apart cell := by
  obtain ⟨entries, here⟩ : ∃ entries, live.store.object? source = some (.mapping entries) := by
    refine Store.isMapping_iff.mp ?_
    by_contra lacks
    rw [Store.entries_of_isMapping (Bool.eq_false_iff.mpr lacks)] at member
    cases member
  rw [Store.entries_of_object? here] at member
  cases covered.tidy source _ here with
  | mapping keys named held =>
      obtain ⟨name, rfl, plain⟩ := named _ member
      have found : live.store.find? source (.text name) = some cell := by
        rw [Store.find?, Store.entries_of_object? here]
        exact Entries.find?_of_mem keys member
      exact ⟨name, rfl, plain, own.further (held _ member) ((Store.along_single ..).trans found)⟩

theorem mergeLast_covered (covering : IsCovering merging) (leads : Leads title base) (covered : live.Covered)
    (own : live.Apart (.object source)) (aimed : live.Aimed base target) (size left : Nat) :
    (mergeLast merging title source target size live left).live.Covered ∧
      Keeps live (mergeLast merging title source target size live left).live := by
  induction left generalizing live with
  | zero => exact ⟨covered, .refl live⟩
  | succ left ih =>
      rw [mergeLast]
      split
      case isFalse => exact ⟨covered, .refl live⟩
      case isTrue =>
        split
        case h_1 => exact ⟨covered, .refl live⟩
        case h_2 key cell entry =>
          obtain ⟨name, rfl, plain, part⟩ := own.entry covered (List.mem_of_getElem? entry)
          obtain ⟨covers, keeps⟩ := mergeEntry_covered covering leads covered plain part aimed
          dsimp only
          split
          case h_1 =>
            obtain ⟨last, more⟩ := ih covers (keeps.apart _ own) (keeps.aimed base target aimed)
            exact ⟨last, keeps.trans more⟩
          case h_2 => exact ⟨covers, keeps⟩

end

theorem merge_covering (room : Nat) : IsCovering (merge room) := by
  induction room with
  | zero => exact fun _ _ _ _ live _ covered _ _ => ⟨covered, .refl live⟩
  | succ room ih =>
      intro title base source target live leads covered own aimed
      exact mergeLast_covered ih leads covered own aimed _ _

end ChipEight.Settings.Live
