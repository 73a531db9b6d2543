/-
This file shows that settings stay valid while documents are loaded that share nothing with one another, and
that they do not if documents share a mapping: it is checked when it is loaded first, and changed later.
-/

import ChipEight.Proofs.Json.Distinct
import ChipEight.Proofs.Settings.Live.Merge
import ChipEight.Proofs.Yaml.Distinct

namespace ChipEight.Settings

variable {entries part : Entries} {rule : Rule} {document : Value} {settings : Settings} {room : Nat}

/-! ### Entries that are cut off -/

theorem Cut.refl (entries : Entries) : Cut entries entries := by
  induction entries with
  | nil => exact .stop []
  | cons entry rest ih => exact .further entry ih

theorem Cut.names (cut : Cut part entries) : (Entries.names part).Sublist (Entries.names entries) := by
  induction cut with
  | stop entries => exact List.nil_sublist _
  | inside cut rest ih => exact (List.nil_sublist _).cons_cons _
  | further entry cut ih => exact ih.cons_cons _

theorem Cut.faces (cut : Cut part entries) : (Entries.faces part).Sublist (Entries.faces entries) := by
  have faces (entries : Entries) : Entries.faces entries = (Entries.names entries).map Key.face := by
    rw [Entries.names, List.map_map]
    rfl
  rw [faces, faces]
  exact cut.names.map Key.face

theorem Cut.distinct (cut : Cut part entries) (distinct : (Value.dict entries).Distinct) :
    (Value.dict part).Distinct := by
  induction cut with
  | stop entries => exact .empty
  | inside cut rest ih =>
      refine .dict (List.nodup_singleton _) (List.forall_mem_singleton.mpr ?_)
      exact ih (distinct.part List.mem_cons_self)
  | further entry cut ih =>
      have behind := ih (.dict (List.nodup_cons.mp distinct.faces).2 fun _ member =>
        distinct.part (List.mem_cons_of_mem _ member))
      exact .dict (distinct.faces.sublist ((Cut.further entry cut).faces))
        (List.forall_mem_cons.mpr ⟨distinct.part List.mem_cons_self, fun _ member => behind.part member⟩)

/-- What is found in cut entries is found in the whole ones, perhaps with more in it. -/
theorem Cut.found (cut : Cut part entries) {key : Key} {value : Value} (found : Entries.find? part key = some value) :
    Entries.find? entries key = some value ∨
      ∃ piece inner, value = .dict piece ∧ Entries.find? entries key = some (.dict inner) ∧ Cut piece inner := by
  induction cut with
  | stop entries => cases found
  | @inside present piece inner cut rest ih =>
      rw [Entries.find?] at found ⊢
      split at found
      case isTrue same =>
        cases found
        rw [if_pos same]
        exact .inr ⟨piece, inner, rfl, rfl, cut⟩
      case isFalse => cases found
  | further entry cut ih =>
      obtain ⟨present, old⟩ := entry
      rw [Entries.find?] at found ⊢
      split at found
      case isTrue same =>
        rw [if_pos same]
        exact .inl found
      case isFalse other =>
        rw [if_neg other]
        exact ih found

theorem Rule.Holds.cut (holds : rule.Holds entries) (cut : Cut part entries) : rule.Holds part := by
  intro value found
  rcases cut.found found with whole | ⟨piece, inner, rfl, whole, -⟩
  · exact holds value whole
  · exact (isMet_dict rule.wanted piece inner).trans (holds _ whole)

theorem Valid.cut (valid : Valid entries) (cut : Cut part entries) : Valid part := by
  refine ⟨fun rule asked => (valid.top rule asked).cut cut, fun name rules listed inner found rule asked => ?_⟩
  rcases cut.found found with whole | ⟨piece, held, same, whole, within⟩
  · exact valid.sections name rules listed inner whole rule asked
  · cases same
    exact (valid.sections name rules listed held whole rule asked).cut within

/-! ### What comes of loading -/

namespace Live

variable {live : Live} {document : Document}

/-- A document is loaded as a copy of it would be, or as much of it as the host has room for. -/
inductive LoadsAs (room : Nat) (settings : Settings) (document : Value) (loaded : Loaded) : Prop where
  | whole (mirrors : loaded.live.Mirrors (settings.loadDocument document).settings)
      (ends : loaded.result = (settings.loadDocument document).result)
  | cut (entries part : Entries) (mapping : document = .dict entries) (valid : Valid entries)
      (cut : Cut part entries) (mirrors : loaded.live.Mirrors (overlay top settings part).settings)
      (ends : loaded.result = .error (.deep .node)) (beyond : room < document.depth)

theorem Mirrors.loadDocument (mirrors : live.Mirrors settings) (single : document.IsSingle) (room : Nat) :
    LoadsAs room settings document.value (live.loadDocument room document) := by
  obtain ⟨⟨old, holds, tree⟩, modified⟩ := mirrors
  obtain ⟨placed, cell, comes⟩ := live.store.bring_placed single
  have stands := comes.stay holds.stands
  let grown : Live := { live with store := (live.store.bring document).1 }
  have still : grown.Mirrors settings := ⟨⟨old, ⟨stands, holds.single⟩, tree⟩, modified⟩
  have loads : live.loadDocument room document = grown.loadCell room placed.cell := by
    rw [← cell]
    rfl
  have looks : grown.store.look placed.cell = document.value :=
    (comes.stands.look comes.single).trans comes.told
  rw [loads, loadCell, looks]
  cases checked : validate document.value with
  | error fault => exact .whole (by rwa [Settings.loadDocument, checked]) (by rw [Settings.loadDocument, checked])
  | ok problems =>
      cases problems with
      | cons problem others =>
          exact .whole (by rwa [Settings.loadDocument, checked]) (by rw [Settings.loadDocument, checked])
      | nil =>
          obtain ⟨entries, mapping, valid⟩ := (validate_nil_iff _).mp checked
          rcases comes.stands.mapping_cases with ⟨site, parts, rfl, there⟩ | ⟨-, shapeless⟩
          case inr =>
            rw [comes.told, mapping] at shapeless
            cases shapeless
          obtain ⟨changed, turned, root, merges⟩ := merge_merging room top site live.root parts old grown comes.stands
            comes.single stands holds.single (comes.apart holds.stands)
          have said : Document.entryValues parts = entries := Value.dict.inj (comes.told.trans mapping)
          have whole : Settings.mk (Document.entryValues old) live.modified = settings := by rw [tree, modified]
          dsimp only
          rw [there, Option.getD_some]
          change Merges room top (Settings.mk (Document.entryValues old) live.modified) _ _ _ at merges
          rw [said, whole] at merges
          generalize merge room top site live.root grown = merged at turned root merges ⊢
          have stand : merged.live.Mirrors ⟨Document.entryValues changed, merged.live.modified⟩ := by
            refine ⟨⟨changed, ?_, rfl⟩, rfl⟩
            constructor <;> rw [root]
            · exact turned.stands
            · exact turned.single
          cases merges with
          | whole lays =>
              have tells : settings.loadDocument document.value = ⟨(overlay top settings entries).settings,
                  (overlay top settings entries).result.map fun _ => true, []⟩ := by
                rw [Settings.loadDocument, checked, mapping]
                rfl
              rw [lays] at tells
              exact .whole (tells ▸ stand) (by rw [tells])
          | cut part cut lays ends beyond =>
              refine .cut entries part mapping valid cut (lays ▸ stand) ?_ (mapping ▸ beyond)
              rw [ends]
              rfl

/-- A host that has room for a document loads all of it. -/
theorem Mirrors.loadDocument_roomy (mirrors : live.Mirrors settings) (single : document.IsSingle) {room : Nat}
    (roomy : document.value.depth ≤ room) :
    (live.loadDocument room document).live.Mirrors (settings.loadDocument document.value).settings ∧
      (live.loadDocument room document).result = (settings.loadDocument document.value).result := by
  cases mirrors.loadDocument single room with
  | whole mirrors ends => exact ⟨mirrors, ends⟩
  | cut entries part mapping valid cut mirrors ends beyond => omega

/-- Settings keep what loading keeps that lays all of a document, or a part of it. -/
theorem LoadsAs.keeps {value : Value} {loaded : Loaded} (loads : LoadsAs room settings value loaded)
    (holds : Settings → Prop) (start : holds settings)
    (lays : ∀ entries part, value = .dict entries → Valid entries → Cut part entries →
      holds (overlay top settings part).settings) :
    ∃ after, loaded.live.Mirrors after ∧ holds after := by
  cases loads with
  | whole mirrors ends =>
      exact ⟨_, mirrors, loadDocument_keeps holds start fun entries mapping valid =>
        lays entries entries mapping valid (.refl entries)⟩
  | cut entries part mapping valid cut mirrors => exact ⟨_, mirrors, lays entries part mapping valid cut⟩

/-! ### Files -/

/-- What is read of a text names each key once. -/
theorem own_distinct {extension text : String} (reads : Library.own.documentOf extension text = .ok document) :
    document.value.Distinct := by
  unfold Library.documentOf at reads
  split at reads
  · obtain ⟨value, parsed, rfl⟩ := Yaml.map_ok.mp (Yaml.mapError_ok.mp reads)
    rw [Document.value_ofValue]
    exact Json.read_distinct parsed
  · cases parsed : Yaml.readDocument text with
    | error problem =>
        simp only [Library.own, parsed] at reads
        cases reads
    | ok document =>
        simp only [Library.own, parsed] at reads
        cases reads
        split
        · exact Yaml.readDocument_distinct parsed
        · exact .empty

theorem fetch_distinct {files : Files} {path : Value} {name : String}
    (found : fetch Library.own.documentOf files path = .document name document) : document.value.Distinct := by
  rcases fetch_cases Library.own.documentOf files path with ⟨other, given, rfl, provides⟩ | ⟨_, _, fetched, -⟩
  · cases provides.fetched.symm.trans found
    have read := provides.read
    cases there : files.readText name with
    | error fault =>
        rw [there] at read
        cases read
    | ok text =>
        rw [there, Except.bind] at read
        exact own_distinct read
  · cases fetched.symm.trans found

/-! ### One load after another -/

/-- A document that is loaded, or a file that is read for one, and the room that the host has then. -/
inductive Load where
  | document (room : Nat) (document : Document)
  | file (room : Nat) (files : Files) (path : Value)

/-- The settings after a load, whatever comes of it. -/
def Load.on (load : Load) (live : Live) : Live :=
  match load with
  | .document room document => (live.loadDocument room document).live
  | .file room files path => (live.load .own room files path).live

/-- No object stands in two places of what is loaded, and no mapping of it has one key twice. -/
def Load.IsPlain : Load → Prop
  | .document _ document => document.IsSingle ∧ document.value.Distinct
  | .file _ files path =>
      ∀ name document, fetch Library.own.documentOf files path = .document name document → document.IsSingle

theorem loadDocument_sturdy (mirrors : live.Mirrors settings) (sturdy : Sturdy settings.tree)
    (single : document.IsSingle) (distinct : document.value.Distinct) (room : Nat) :
    ∃ after, (live.loadDocument room document).live.Mirrors after ∧ Sturdy after.tree := by
  refine (mirrors.loadDocument single room).keeps (fun settings => Sturdy settings.tree) sturdy ?_
  intro entries part mapping valid cut
  exact sturdy.overlay (cut.distinct (mapping ▸ distinct)) (valid.cut cut)

theorem Load.sturdy {load : Load} (plain : load.IsPlain) (mirrors : live.Mirrors settings)
    (sturdy : Sturdy settings.tree) : ∃ after, (load.on live).Mirrors after ∧ Sturdy after.tree := by
  cases load with
  | document room document => exact loadDocument_sturdy mirrors sturdy plain.1 plain.2 room
  | file room files path =>
      unfold Load.on Live.load
      dsimp only
      cases fetched : fetch Library.own.documentOf files path with
      | nothing result notes => exact ⟨settings, mirrors, sturdy⟩
      | document name document =>
          have loads := loadDocument_sturdy mirrors sturdy (plain name document fetched) (fetch_distinct fetched) room
          dsimp only
          split <;> exact loads

theorem loads_sturdy (loads : List Load) (plain : ∀ load ∈ loads, load.IsPlain) (mirrors : live.Mirrors settings)
    (sturdy : Sturdy settings.tree) :
    ∃ after, (loads.foldl (fun live load => load.on live) live).Mirrors after ∧ Sturdy after.tree := by
  induction loads generalizing live settings with
  | nil => exact ⟨settings, mirrors, sturdy⟩
  | cons load rest ih =>
      obtain ⟨first, others⟩ := List.forall_mem_cons.mp plain
      obtain ⟨after, still, strong⟩ := load.sturdy first mirrors sturdy
      exact ih others still strong

/-- After documents and files are loaded in any order, whatever comes of each, settings have no problems, all
first keys are there, and each section is a mapping that has its first keys. That is so as long as no object stands
in two places of what is loaded, and no mapping of it has one key twice. -/
theorem loads_valid (loads : List Load) (plain : ∀ load ∈ loads, load.IsPlain) :
    let settings := (loads.foldl (fun live load => load.on live) initial).shown
    validate (.dict settings.tree) = .ok [] ∧
    (∀ key ∈ Entries.names defaults, Entries.has settings.tree key = true) ∧
    ∀ name ∈ sectionNames, ∃ first inner,
      Entries.find? defaults (.text name) = some (.dict first) ∧
      Entries.find? settings.tree (.text name) = some (.dict inner) ∧
      ∀ key ∈ Entries.names first, Entries.has inner key = true := by
  intro settings
  obtain ⟨after, mirrors, sturdy⟩ := loads_sturdy loads plain (fresh_mirrors .empty) initial_sturdy
  have same : settings = after := mirrors.shown
  rw [same]
  refine ⟨(validate_nil_iff _).mpr ⟨_, rfl, sturdy.valid⟩, sturdy.keys, fun name listed => ?_⟩
  obtain ⟨rules, first, ruled, found⟩ := section_first listed
  obtain ⟨inner, present, -, complete⟩ := sturdy.sections name rules ruled
  refine ⟨first, inner, found, present, ?_⟩
  unfold sectionKeys at complete
  rw [found] at complete
  exact complete

/-- A bound is loaded for the history, then a document is refused, and then one cannot be checked. -/
theorem loads_valid_mixed :
    let bounded := Value.record [("recording", Value.record [("max_history", .int 5)])]
    let documents := [bounded, Value.record [("recording", .text "five")], Value.record [("system", .list [])]]
    let loads := documents.map fun document => Load.document 990 (.ofValue document)
    let settings := (loads.foldl (fun live load => load.on live) initial).shown
    (∀ load ∈ loads, load.IsPlain) ∧ find? (.dict settings.tree) ["recording", "max_history"] = some (.int 5) ∧
      validate (.dict settings.tree) = .ok [] := by
  refine ⟨?plain, by rfl, (loads_valid _ ?plain).1⟩
  refine List.forall_mem_map.mpr fun document member => ⟨Document.ofValue_single document, ?_⟩
  rw [Document.value_ofValue]
  revert document
  have inner : (Value.record [("max_history", .int 5)]).Distinct :=
    .dict (by decide) (List.forall_mem_singleton.mpr (.single rfl))
  have none : (Value.list []).Distinct := .list (List.forall_mem_nil _)
  refine List.forall_mem_cons.mpr ⟨.dict (by decide) (List.forall_mem_singleton.mpr inner), ?_⟩
  refine List.forall_mem_cons.mpr ⟨.dict (by decide) (List.forall_mem_singleton.mpr (.single rfl)), ?_⟩
  exact List.forall_mem_singleton.mpr (.dict (by decide) (List.forall_mem_singleton.mpr none))

/-- Settings whose level is none of the levels have a problem. -/
theorem validate_level {tree : Entries} {level : Value} (found : find? (.dict tree) ["logging", "level"] = some level)
    (unmet : (Wanted.oneOf levelNames).isMet level = false) : validate (.dict tree) ≠ .ok [] := by
  intro checked
  obtain ⟨entries, same, valid⟩ := (validate_nil_iff _).mp checked
  cases same
  obtain ⟨inner, there⟩ : ∃ inner, find? (.dict tree) ["logging"] = some (.dict inner) := find?_mapping found
  rw [find?_top] at there
  rw [find?_inner "level" there] at found
  have meets := valid.sections "logging" _ (.head _) inner there ⟨"level", "logging.level", .oneOf levelNames⟩
    (.head _) level found
  exact nomatch unmet.symm.trans meets

/-- One mapping stands under two names. A section that is loaded under the first of them and for logging has a good
level when it is checked. Under the second name the level is then changed to a number before it is merged into
that for logging, so settings that are taken twice are not valid. -/
theorem shared_section_unchecked :
    let shared := Document.mapping (some 0) []
    let quiet := Document.mapping (some 0) [(.text "level", .scalar (.text "INFO"))]
    let loud := Document.mapping none [(.text "level", .scalar (.int 5))]
    let names := Document.mapping none [(.text "a", shared), (.text "b", shared)]
    let levels := Document.mapping none [(.text "a", .mapping none [(.text "p", quiet)]),
      (.text "b", .mapping none [(.text "p", loud)]), (.text "logging", quiet)]
    let first := initial.loadDocument 990 names
    let second := first.live.loadDocument 990 levels
    first.result = .ok true ∧ second.result = .ok true ∧
      find? (.dict second.live.shown.tree) ["logging", "level"] = some (.int 5) ∧
      validate (.dict second.live.shown.tree) ≠ .ok [] := by
  refine ⟨by rfl, by rfl, ?level, validate_level ?level rfl⟩
  set_option maxRecDepth 10000 in
  rfl

end Live

end ChipEight.Settings
