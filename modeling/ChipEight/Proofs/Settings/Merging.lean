/-
This file says what stands in settings after a document is laid over them: under each key what was there,
what the document has, or both of them merged. A property of mappings that entries keep is kept by laying.
-/

import ChipEight.Proofs.Settings.Loads
import ChipEight.Proofs.Value.Alike

namespace ChipEight.Settings

variable {path key : Key} {settings : Settings} {value : Value} {entries : Entries}

/-! ### Under one key -/

/-- What stands under a key after entries are laid. -/
inductive LaidAt (path : Key) (settings : Settings) (entries : Entries) (key : Key) : Prop where
  | kept (absent : Entries.find? entries key = none)
      (stands : Entries.find? (overlay path settings entries).settings.tree key =
        Entries.find? settings.tree key)
  | placed (value : Value) (given : Entries.find? entries key = some value)
      (apart : ∀ inner old, value = .dict inner → Entries.find? settings.tree key ≠ some (.dict old))
      (stands : Entries.find? (overlay path settings entries).settings.tree key = some value)
  | merged (inner old : Entries) (name : Key) (modified : List Key)
      (given : Entries.find? entries key = some (.dict inner))
      (found : Entries.find? settings.tree key = some (.dict old))
      (ends : (overlay name ⟨old, modified⟩ inner).result = .ok ())
      (stands : Entries.find? (overlay path settings entries).settings.tree key =
        some (.dict (overlay name ⟨old, modified⟩ inner).settings.tree))

section

variable {present : Key} {rest : Entries}
  (goes : overlay path settings ((present, value) :: rest) =
    overlay path (overlayEntry path present settings value).settings rest)
  (later : LaidAt path (overlayEntry path present settings value).settings rest key)

include goes later

/-- The first entry decides what stands under its key, since no other entry has that key. -/
theorem LaidAt.first (same : key.face = present.face) (new : present.face ∉ Entries.faces rest)
    (lays : (overlayEntry path present settings value).result = .ok ()) :
    LaidAt path settings ((present, value) :: rest) key := by
  have absent : Entries.find? rest key = none := Entries.find?_absent (same ▸ new)
  have given : Entries.find? ((present, value) :: rest) key = some value := by
    rw [Entries.find?_congr same]
    exact if_pos present.sameSelf
  have stands : Entries.find? (overlay path settings ((present, value) :: rest)).settings.tree key =
      Entries.find? (overlayEntry path present settings value).settings.tree key := by
    rw [goes]
    cases later with
    | kept _ stands => exact stands
    | placed other given => exact nomatch absent.symm.trans given
    | merged inner old name modified given => exact nomatch absent.symm.trans given
  cases overlayEntry_laid path present settings value with
  | nameless fault named fails => rw [fails] at lays; cases lays
  | inside name inner old merged named mapping found merges puts =>
      subst mapping merges
      rw [puts] at lays stands
      refine .merged inner old name settings.modified given ?_ lays ?_
      · exact (Entries.find?_congr same).trans found
      · exact stands.trans ((Entries.find?_congr same).trans (Entries.findPutSame _ _ _))
  | instead name named apart puts =>
      rw [puts] at stands
      refine .placed value given ?_ ?_
      · rwa [Entries.find?_congr same]
      · exact stands.trans ((Entries.find?_congr same).trans (Entries.findPutSame _ _ _))

/-- The first entry leaves what stands under another key to the entries behind it. -/
theorem LaidAt.beyond (other : key.face ≠ present.face) :
    LaidAt path settings ((present, value) :: rest) key := by
  have untold : Entries.find? ((present, value) :: rest) key = Entries.find? rest key :=
    if_neg fun alike => other (eq_of_beq alike).symm
  have before : Entries.find? (overlayEntry path present settings value).settings.tree key =
      Entries.find? settings.tree key := overlayEntry_other other
  cases later with
  | kept absent stands =>
      exact .kept (untold.trans absent) (by rw [goes, stands, before])
  | placed new given apart stands =>
      rw [before] at apart
      exact .placed new (untold.trans given) apart (by rw [goes, stands])
  | merged inner old name modified given found ends stands =>
      rw [before] at found
      exact .merged inner old name modified (untold.trans given) found ends (by rw [goes, stands])

end

/-- The entry of a key decides what stands under it. -/
theorem overlay_laidAt (distinct : (Entries.faces entries).Nodup)
    (ends : (overlay path settings entries).result = .ok ()) (key : Key) :
    LaidAt path settings entries key := by
  induction entries generalizing settings with
  | nil => exact .kept rfl rfl
  | cons entry rest ih =>
      obtain ⟨present, value⟩ := entry
      obtain ⟨new, others⟩ := List.nodup_cons.mp distinct
      rcases overlay_cons path present settings value rest with ⟨lays, goes⟩ | ⟨⟨fault, fails⟩, stops⟩
      case inr =>
        rw [stops, fails] at ends
        cases ends
      rw [goes] at ends
      have later := ih others ends
      by_cases same : key.face = present.face
      · exact .first goes later same new lays
      · exact .beyond goes later same

/-! ### What laying keeps -/

theorem overlay_faces (first : (Entries.faces settings.tree).Nodup) :
    (Entries.faces (overlay path settings entries).settings.tree).Nodup := by
  refine overlay_keeps (fun settings => (Entries.faces settings.tree).Nodup) first
    fun settings key value _ held => ?_
  rcases overlayEntry_tree path key settings value with same | ⟨_, puts, -⟩
  · rwa [same]
  · rw [puts]
    exact Entries.put_distinct held

/-- A property of values with so much room for what is in them. A mapping gives it to its parts, and keeps it
when a value that has it is put under a key of another mapping that has it. -/
structure Closed (holds : Nat → Value → Prop) : Prop where
  part : ∀ {room : Nat} {entries : Entries} {key : Key} {value : Value}, holds room (.dict entries) →
    (key, value) ∈ entries → holds (room - 1) value
  put : ∀ {room : Nat} {entries others : Entries} {key : Key} {old value : Value},
    holds room (.dict entries) → holds room (.dict others) → (key, old) ∈ others →
    holds (room - 1) value → holds room (.dict (Entries.put entries key value))

theorem sizeOf_inner {inner : Entries} (member : (key, Value.dict inner) ∈ entries) :
    sizeOf inner < sizeOf entries := by
  have within := List.sizeOf_lt_of_mem member
  simp only [Prod.mk.sizeOf_spec, Value.dict.sizeOf_spec] at within
  omega

/-- Mappings with the property give one that has it, also if there is a fault. -/
theorem Closed.overlay {holds : Nat → Value → Prop} (closed : Closed holds) {room : Nat} {path : Key}
    {settings : Settings} {entries : Entries}
    (old : holds room (.dict settings.tree)) (new : holds room (.dict entries)) :
    holds room (.dict (overlay path settings entries).settings.tree) := by
  refine overlay_keeps (fun settings => holds room (.dict settings.tree)) old
    fun settings key value member held => ?_
  cases overlayEntry_laid path key settings value with
  | nameless fault named lays => rwa [lays]
  | inside name inner first merged named mapping found merges lays =>
      subst mapping merges
      obtain ⟨present, within⟩ := Entries.find?_mem found
      have : sizeOf inner < sizeOf entries := sizeOf_inner member
      rw [lays]
      exact closed.put held new member (closed.overlay (closed.part held within) (closed.part new member))
  | instead name named apart lays =>
      rw [lays]
      exact closed.put held new member (closed.part new member)
termination_by sizeOf entries

theorem Closed.loadDocument {holds : Nat → Value → Prop} (closed : Closed holds) (room : Nat)
    {document : Value} (old : holds room (.dict settings.tree)) (new : holds room document) :
    holds room (.dict (settings.loadDocument document).settings.tree) := by
  refine loadDocument_keeps (fun settings => holds room (.dict settings.tree)) old fun entries mapping _ => ?_
  exact closed.overlay old (mapping ▸ new)

theorem isJson_closed : Closed fun _ value => value.IsJson where
  part := fun json member => json.part member
  put json others member new := by
    obtain ⟨name, rfl⟩ := others.named member
    exact json.put name new

/-- Entries that have no faults are laid to the end. -/
theorem overlay_whole (step : ∀ settings key value, (key, value) ∈ entries →
      (overlayEntry path key settings value).result = .ok ()) :
    (overlay path settings entries).result = .ok () := by
  induction entries generalizing settings with
  | nil => rfl
  | cons entry rest ih =>
      obtain ⟨key, value⟩ := entry
      have ends := step settings key value List.mem_cons_self
      rcases overlay_cons path key settings value rest with ⟨-, goes⟩ | ⟨-, stops⟩
      · rw [goes]
        exact ih fun settings key value member => step settings key value (.tail _ member)
      · rw [stops, ends]

/-- Entries with texts for their keys have no faults. -/
theorem overlay_ends {path : Key} {settings : Settings} {entries : Entries}
    (shown : path.toValue.isShowable = true) (json : (Value.dict entries).IsJson) :
    (overlay path settings entries).result = .ok () := by
  refine overlay_whole fun settings key value member => ?_
  obtain ⟨characters, rfl⟩ := json.named member
  rcases below_cases path (.text characters) with ⟨name, named, shows⟩ | ⟨-, hidden⟩
  case inr => exact nomatch hidden shown
  cases overlayEntry_laid path (.text characters) settings value with
  | nameless fault unnamed lays => exact nomatch named.symm.trans unnamed
  | inside other inner old merged title mapping found merges lays =>
      cases named.symm.trans title
      subst mapping merges
      have : sizeOf inner < sizeOf entries := sizeOf_inner member
      rw [lays]
      exact overlay_ends (shows shown rfl) (json.part member)
  | instead other title apart lays => rw [lays]
termination_by sizeOf entries

/-! ### Laying over what is covered -/

/-- Entries that have all keys of the settings give back what they are like, if that is so of the mappings
on both sides. -/
theorem overlay_restores {old wanted : Entries} {modified : List Key}
    (alike : Value.Alike (.dict entries) (.dict wanted)) (first : (Entries.faces old).Nodup)
    (distinct : (Entries.faces entries).Nodup) (single : (Entries.faces wanted).Nodup)
    (ends : (overlay path ⟨old, modified⟩ entries).result = .ok ())
    (covered : ∀ key, Entries.has old key = true → Entries.has entries key = true)
    (inside : ∀ key before inner target name modified, Entries.find? old key = some (.dict before) →
      Entries.find? entries key = some (.dict inner) → Entries.find? wanted key = some (.dict target) →
      (overlay name ⟨before, modified⟩ inner).result = .ok () →
      Value.Alike (.dict (overlay name ⟨before, modified⟩ inner).settings.tree) (.dict target)) :
    Value.Alike (.dict (overlay path ⟨old, modified⟩ entries).settings.tree) (.dict wanted) := by
  have settled := overlay_laidAt distinct ends
  refine .of_parts (overlay_faces first) single (fun key => ?_) fun key value other found wants => ?_
  · rw [← alike.names key]
    cases settled key with
    | kept absent stands =>
        rw [Entries.has, stands]
        cases held : Entries.has old key with
        | false => rw [Entries.has, absent]; exact held
        | true => exact held.trans (covered key held).symm
    | placed value given apart stands => rw [Entries.has_of_find? given, Entries.has_of_find? stands]
    | merged inner before name modified given there ends stands =>
        rw [Entries.has_of_find? given, Entries.has_of_find? stands]
  · cases settled key with
    | kept absent stands =>
        have held := covered key (Entries.has_of_find? (stands.symm.trans found))
        rw [Entries.has, absent] at held
        cases held
    | placed value given apart stands =>
        cases found.symm.trans stands
        exact alike.parts given wants
    | merged inner before name modified given there ends stands =>
        cases found.symm.trans stands
        obtain ⟨target, rfl⟩ := (alike.parts given wants).dict_left
        exact inside key before inner target name modified there given wants ends

/-! ### What is there at first -/

theorem initial_json : (Value.dict initial.tree).IsJson := by
  have logging : (Value.record [("level", .text "INFO"), ("file", .null), ("console", .bool true)]).IsJson :=
    .record (by decide) (by simp [Value.IsJson.text, Value.IsJson.null, Value.IsJson.bool])
  have recording : (Value.record [("enabled", .bool false), ("max_history", .int Recorder.usualLimit),
      ("compression_ratio", .int Recorder.usualRatio), ("format", .text "json")]).IsJson :=
    .record (by decide) (by simp [Value.IsJson.text, Value.IsJson.int, Value.IsJson.bool])
  have output : (Value.record [("dump_display", .bool false), ("plot", .bool false),
      ("directory", .text "./output")]).IsJson :=
    .record (by decide) (by simp [Value.IsJson.text, Value.IsJson.bool])
  refine .dict (by decide) (by simp [initial, defaults]) ?_
  simp only [initial, defaults, List.forall_mem_cons]
  exact ⟨.text _, .int _, .int _, logging, recording, output, List.forall_mem_nil _⟩

/-- A mapping that is there at first is a section, and has no mapping in it. -/
theorem defaults_section {key : Key} {before : Entries}
    (found : Entries.find? defaults key = some (.dict before)) :
    (∃ name rules, (name, rules) ∈ sectionRules ∧ key.face = (Key.text name).face ∧
      sectionKeys name = Entries.names before) ∧
    (Entries.faces before).Nodup ∧ ∀ other inner, Entries.find? before other ≠ some (.dict inner) := by
  obtain ⟨present, member, same⟩ := Entries.find?_entry found
  have flat (single : (before.all fun entry => entry.2.entries?.isNone) = true) (other : Key)
      (inner : Entries) : Entries.find? before other ≠ some (.dict inner) := by
    intro there
    obtain ⟨_, within, -⟩ := Entries.find?_entry there
    cases List.all_eq_true.mp single _ within
  simp only [defaults, Value.record, List.map, List.mem_cons, Prod.mk.injEq, reduceCtorEq, and_false, false_or,
    List.not_mem_nil, or_false, Value.dict.injEq] at member
  rcases member with ⟨rfl, rfl⟩ | ⟨rfl, rfl⟩ | ⟨rfl, rfl⟩
  · exact ⟨⟨_, _, .head _, same, rfl⟩, by decide, flat rfl⟩
  · exact ⟨⟨_, _, .tail _ (.head _), same, rfl⟩, by decide, flat rfl⟩
  · exact ⟨⟨_, _, .tail _ (.tail _ (.head _)), same, rfl⟩, by decide, flat rfl⟩

/-- A document that is taken is a valid mapping, and all of it is laid. -/
theorem loadDocument_laid {document : Value} (taken : (settings.loadDocument document).result = .ok true) :
    ∃ entries, document = .dict entries ∧ Valid entries ∧ (overlay top settings entries).result = .ok () ∧
      (settings.loadDocument document).settings = (overlay top settings entries).settings := by
  have checked := loadDocument_checked taken
  obtain ⟨entries, rfl, valid⟩ := (validate_nil_iff document).mp checked
  simp only [loadDocument, checked, Value.entries?, Option.getD_some] at taken ⊢
  cases ends : (overlay top settings entries).result with
  | ok done => exact ⟨entries, rfl, valid, ends, rfl⟩
  | error fault =>
      rw [ends] at taken
      cases taken

end ChipEight.Settings
