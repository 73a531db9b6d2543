/-
This file shows that settings stay valid, whatever is loaded. Only what is loaded is checked, but entries
that meet all rules, laid over settings that meet them, give settings that meet them, also where they are
laid only in part.
-/

import ChipEight.Proofs.Settings.Validation

namespace ChipEight.Settings

variable {path key : Key} {settings : Settings} {value : Value} {entries : Entries} {rule : Rule}

/-! ### One rule -/

/-- That a value is a mapping is all that a rule asks of a mapping. -/
theorem isMet_dict (wanted : Wanted) (first second : Entries) :
    wanted.isMet (.dict first) = wanted.isMet (.dict second) := by
  cases wanted <;> rfl

theorem isMet_mapping (meets : Wanted.isMet .mapping value = true) : ∃ inner, value = .dict inner := by
  cases value with
  | dict inner => exact ⟨inner, rfl⟩
  | _ => cases meets

/-- What a mapping that meets a rule has under its name meets it. -/
theorem Rule.Holds.member (holds : rule.Holds entries) (distinct : (Entries.faces entries).Nodup)
    (member : (key, value) ∈ entries) (same : (Key.text rule.name).face = key.face) :
    rule.wanted.isMet value = true :=
  holds value ((Entries.find?_congr same).trans (Entries.find?_of_mem distinct member))

theorem Rule.Holds.put (holds : rule.Holds entries)
    (meets : (Key.text rule.name).face = key.face → rule.wanted.isMet value = true) :
    rule.Holds (Entries.put entries key value) := by
  intro present found
  by_cases same : (Key.text rule.name).face = key.face
  · rw [Entries.find?_congr same, Entries.findPutSame] at found
    cases found
    exact meets same
  · rw [Entries.findPutOther entries value same] at found
    exact holds present found

/-- An entry leaves the tree as it was, or something that meets the same rules is put under its key. -/
theorem overlayEntry_tree (path key : Key) (settings : Settings) (value : Value) :
    (overlayEntry path key settings value).settings.tree = settings.tree ∨
      ∃ held, (overlayEntry path key settings value).settings.tree = Entries.put settings.tree key held ∧
        ∀ wanted : Wanted, wanted.isMet held = wanted.isMet value := by
  cases overlayEntry_laid path key settings value with
  | nameless fault named lays => exact .inl (by rw [lays])
  | inside name inner old merged named mapping found merges lays =>
      subst mapping
      exact .inr ⟨.dict merged.settings.tree, by rw [lays], fun wanted => isMet_dict wanted _ _⟩
  | instead name named apart lays => exact .inr ⟨value, by rw [lays], fun _ => rfl⟩

theorem Rule.Holds.entry (holds : rule.Holds settings.tree)
    (meets : (Key.text rule.name).face = key.face → rule.wanted.isMet value = true) :
    rule.Holds (overlayEntry path key settings value).settings.tree := by
  rcases overlayEntry_tree path key settings value with same | ⟨held, puts, alike⟩
  · rwa [same]
  · rw [puts]
    exact holds.put fun same => (alike rule.wanted).trans (meets same)

/-- Entries that meet a rule are laid over others that meet it. -/
theorem Rule.Holds.overlay (holds : rule.Holds settings.tree) (meets : rule.Holds entries)
    (distinct : (Entries.faces entries).Nodup) :
    rule.Holds (overlay path settings entries).settings.tree :=
  overlay_keeps (fun settings => rule.Holds settings.tree) holds fun _ _ _ member held =>
    held.entry fun same => meets.member distinct member same

/-! ### Keys -/

theorem overlayEntry_has {other : Key} (held : Entries.has settings.tree other = true) :
    Entries.has (overlayEntry path key settings value).settings.tree other = true := by
  rcases overlayEntry_tree path key settings value with same | ⟨_, puts, -⟩
  · rwa [same]
  · rw [puts]
    exact Entries.has_put held

theorem overlay_has {other : Key} (held : Entries.has settings.tree other = true) :
    Entries.has (overlay path settings entries).settings.tree other = true :=
  overlay_keeps (fun settings => Entries.has settings.tree other = true) held fun _ _ _ _ =>
    overlayEntry_has

theorem overlayEntry_other {other : Key} (different : other.face ≠ key.face) :
    Entries.find? (overlayEntry path key settings value).settings.tree other =
      Entries.find? settings.tree other := by
  rcases overlayEntry_tree path key settings value with same | ⟨held, puts, -⟩
  · rw [same]
  · rw [puts]
    exact Entries.findPutOther _ held different

/-! ### The whole tree -/

/-- The keys that a section has at first. -/
def sectionKeys (name : String) : List Key :=
  Entries.names (((Entries.find? defaults (.text name)).bind Value.entries?).getD [])

/-- A section is a mapping that meets its rules and has its first keys. -/
def HasSection (tree : Entries) (name : String) (rules : List Rule) : Prop :=
  ∃ inner, Entries.find? tree (.text name) = some (.dict inner) ∧
    (∀ rule ∈ rules, rule.Holds inner) ∧ ∀ key ∈ sectionKeys name, Entries.has inner key = true

/-- Settings meet their rules and have all that they have at first. -/
structure Sturdy (tree : Entries) : Prop where
  top : ∀ rule ∈ topRules, rule.Holds tree
  keys : ∀ key ∈ Entries.names defaults, Entries.has tree key = true
  sections : ∀ name rules, (name, rules) ∈ sectionRules → HasSection tree name rules

theorem Sturdy.valid (sturdy : Sturdy entries) : Valid entries := by
  refine ⟨sturdy.top, fun name rules listed inner found => ?_⟩
  obtain ⟨held, present, meets, -⟩ := sturdy.sections name rules listed
  cases found.symm.trans present
  exact meets

/-- A section must be a mapping. -/
theorem section_mapping {name : String} {rules : List Rule} (listed : (name, rules) ∈ sectionRules) :
    ⟨name, name, .mapping⟩ ∈ topRules := by
  have named : name ∈ sectionNames := by
    simp only [sectionRules, List.mem_cons, Prod.mk.injEq, List.not_mem_nil, or_false] at listed
    rcases listed with ⟨rfl, -⟩ | ⟨rfl, -⟩ | ⟨rfl, -⟩ <;> decide
  exact List.mem_append_right _ (List.mem_map_of_mem named)

/-- A section has rules, and is there at first. -/
theorem section_first {name : String} (listed : name ∈ sectionNames) :
    ∃ rules first, (name, rules) ∈ sectionRules ∧
      Entries.find? defaults (.text name) = some (.dict first) := by
  simp only [sectionNames, List.mem_cons, List.not_mem_nil, or_false] at listed
  rcases listed with rfl | rfl | rfl
  · exact ⟨_, _, .head _, rfl⟩
  · exact ⟨_, _, .tail _ (.head _), rfl⟩
  · exact ⟨_, _, .tail _ (.tail _ (.head _)), rfl⟩

/-- An entry of a valid mapping leaves a section as it was, or is merged into it. -/
theorem HasSection.entry {name : String} {rules : List Rule} (stands : HasSection settings.tree name rules)
    (listed : (name, rules) ∈ sectionRules) (distinct : (Value.dict entries).Distinct)
    (valid : Valid entries) (member : (key, value) ∈ entries) :
    HasSection (overlayEntry path key settings value).settings.tree name rules := by
  obtain ⟨held, present, meets, complete⟩ := stands
  by_cases same : (Key.text name).face = key.face
  · have found : Entries.find? entries (.text name) = some value :=
      (Entries.find?_congr same).trans (Entries.find?_of_mem distinct.faces member)
    -- Both sides are mappings, so the entry is merged into the section and does not take its place.
    obtain ⟨inner, rfl⟩ := isMet_mapping (valid.top _ (section_mapping listed) value found)
    cases overlayEntry_laid path key settings (.dict inner) with
    | nameless fault named lays =>
        rw [lays]
        exact ⟨held, present, meets, complete⟩
    | inside title inner old merged named mapping there merges lays =>
        rw [lays]
        cases mapping
        rw [← Entries.find?_congr same, present] at there
        cases there
        subst merges
        refine ⟨_, (Entries.find?_congr same).trans (Entries.findPutSame _ _ _), fun rule asked => ?_,
          fun other first => overlay_has (complete other first)⟩
        exact (meets rule asked).overlay (valid.sections name rules listed inner found rule asked)
          (distinct.part member).faces
    | instead name named apart lays =>
        rw [Entries.find?_congr same] at present
        exact absurd present (apart inner held rfl)
  · exact ⟨held, (overlayEntry_other same).trans present, meets, complete⟩

theorem Sturdy.entry (sturdy : Sturdy settings.tree) (distinct : (Value.dict entries).Distinct)
    (valid : Valid entries) (member : (key, value) ∈ entries) :
    Sturdy (overlayEntry path key settings value).settings.tree where
  top rule asked := (sturdy.top rule asked).entry fun same =>
    (valid.top rule asked).member distinct.faces member same
  keys other first := overlayEntry_has (sturdy.keys other first)
  sections name rules listed := (sturdy.sections name rules listed).entry listed distinct valid member

theorem Sturdy.overlay (sturdy : Sturdy settings.tree) (distinct : (Value.dict entries).Distinct)
    (valid : Valid entries) : Sturdy (overlay path settings entries).settings.tree :=
  overlay_keeps (fun settings => Sturdy settings.tree) sturdy fun _ _ _ member held =>
    held.entry distinct valid member

/-! ### Loading -/

theorem initial_sturdy : Sturdy initial.tree := by
  have valid : Valid defaults := problemsOf_eq_nil_iff.mp (by decide)
  refine ⟨valid.top, by decide, fun name rules listed => ?_⟩
  have meets := valid.sections name rules listed
  simp only [sectionRules, List.mem_cons, Prod.mk.injEq, List.not_mem_nil, or_false] at listed
  rcases listed with ⟨rfl, -⟩ | ⟨rfl, -⟩ | ⟨rfl, -⟩ <;>
  exact ⟨_, rfl, meets _ rfl, by decide⟩

theorem Sturdy.loadDocument (sturdy : Sturdy settings.tree) {document : Value}
    (distinct : document.Distinct) : Sturdy (settings.loadDocument document).settings.tree := by
  refine loadDocument_keeps (fun settings => Sturdy settings.tree) sturdy fun entries mapping valid => ?_
  exact sturdy.overlay (mapping ▸ distinct) valid

end ChipEight.Settings
