/-
This file says which documents settings take: those that meet every rule. A document that does not is
refused and changes nothing. There are documents whose problems cannot be told, and documents without
problems that are laid over the settings only in part.
-/

import ChipEight.Proofs.Files.Contents
import ChipEight.Proofs.Settings.Overlay
import ChipEight.Proofs.Value.Document
import ChipEight.Proofs.Value.Lookup
import ChipEight.Settings.File

namespace ChipEight.Settings

/-- The setting of a rule meets it, if there is such a setting. -/
def Rule.Holds (rule : Rule) (entries : Entries) : Prop :=
  ∀ value, Entries.find? entries (.text rule.name) = some value → rule.wanted.isMet value = true

/-- All settings meet their rules, and so do those of the sections that are mappings. -/
structure Valid (entries : Entries) : Prop where
  top : ∀ rule ∈ topRules, rule.Holds entries
  sections : ∀ name rules, (name, rules) ∈ sectionRules →
    ∀ inner, Entries.find? entries (.text name) = some (.dict inner) → ∀ rule ∈ rules, rule.Holds inner

/-- The problems that a mapping has. -/
def problemsOf (entries : Entries) : List Problem :=
  misfits entries topRules ++ sectionProblems entries

/-- A mapping cannot be checked for this cause: its system is a collection, or a value that does not meet
its rule has a number that is too long to be shown. -/
inductive Baffles : Value → Fault → Prop where
  | system {entries : Entries} {system : Value}
      (found : Entries.find? entries (.text "system") = some system)
      (collection : system.toKey? = none) : Baffles (.dict entries) .wrongKind
  | showing {entries : Entries} {label : String} {value : Value} {wanted : Wanted}
      (key : ∀ system, Entries.find? entries (.text "system") = some system → system.toKey? ≠ none)
      (problem : .misfit label value wanted ∈ problemsOf entries)
      (long : value.isShowable = false) : Baffles (.dict entries) (.unfit .longNumber)

variable {entries : Entries}

theorem misfits_eq_nil_iff (rules : List Rule) :
    misfits entries rules = [] ↔ ∀ rule ∈ rules, rule.Holds entries := by
  unfold misfits
  rw [List.filterMap_eq_nil_iff]
  refine forall₂_congr fun rule _ => ?_
  unfold Rule.Holds
  cases Entries.find? entries (.text rule.name) <;> simp

theorem sectionProblems_eq_nil_iff :
    sectionProblems entries = [] ↔ ∀ name rules, (name, rules) ∈ sectionRules →
      ∀ inner, Entries.find? entries (.text name) = some (.dict inner) →
        ∀ rule ∈ rules, rule.Holds inner := by
  unfold sectionProblems
  rw [List.flatMap_eq_nil_iff, Prod.forall]
  refine forall₂_congr fun name rules => imp_congr_right fun _ => ?_
  dsimp only
  split
  case h_1 inner found =>
    rw [misfits_eq_nil_iff]
    constructor
    · intro holds other same
      cases found.symm.trans same
      exact holds
    · exact fun holds => holds inner found
  case h_2 other => exact ⟨fun _ inner found => absurd found (other inner), fun _ => rfl⟩

theorem problemsOf_eq_nil_iff : problemsOf entries = [] ↔ Valid entries := by
  unfold problemsOf
  rw [List.append_eq_nil_iff, misfits_eq_nil_iff, sectionProblems_eq_nil_iff]
  exact ⟨fun ⟨top, sections⟩ => ⟨top, sections⟩, fun valid => ⟨valid.top, valid.sections⟩⟩

theorem checkShowable_cases (problems : List Problem) :
    (∀ label value wanted, .misfit label value wanted ∈ problems → value.isShowable = true) ∧
      checkShowable problems = .ok problems ∨
    (∃ label value wanted, .misfit label value wanted ∈ problems ∧ value.isShowable = false) ∧
      checkShowable problems = .error (.unfit .longNumber) := by
  unfold checkShowable
  dsimp only
  split
  case isTrue all =>
    rw [List.all_eq_true] at all
    exact .inl ⟨fun label value wanted member => all _ member, rfl⟩
  case isFalse some =>
    simp only [List.all_eq_true, Classical.not_forall] at some
    obtain ⟨problem, member, hidden⟩ := some
    cases problem with
    | notMapping kindName => exact absurd rfl hidden
    | misfit label value wanted =>
        exact .inr ⟨⟨label, value, wanted, member, Bool.eq_false_iff.mpr hidden⟩, rfl⟩

theorem validate_cases (entries : Entries) :
    (∃ system, Entries.find? entries (.text "system") = some system ∧ system.toKey? = none ∧
      validate (.dict entries) = .error .wrongKind) ∨
    (∀ system, Entries.find? entries (.text "system") = some system → system.toKey? ≠ none) ∧
      validate (.dict entries) = checkShowable (problemsOf entries) := by
  unfold validate
  dsimp only
  split
  case h_1 items found => exact .inl ⟨_, found, rfl, rfl⟩
  case h_2 inner found => exact .inl ⟨_, found, rfl, rfl⟩
  case h_3 noList noDict =>
    refine .inr ⟨fun system found => ?_, rfl⟩
    cases system with
    | list items => exact absurd found (noList items)
    | dict inner => exact absurd found (noDict inner)
    | _ => nofun

/-- The causes for which a document cannot be checked are just these. -/
theorem validate_error_iff (document : Value) (fault : Fault) :
    validate document = .error fault ↔ Baffles document fault := by
  rcases document.entries_cases with ⟨entries, rfl⟩ | shapeless
  · rcases validate_cases entries with ⟨system, found, collection, fails⟩ | ⟨key, checks⟩
    · rw [fails]
      constructor
      · rintro ⟨⟩
        exact .system found collection
      · intro baffles
        cases baffles with
        | system => rfl
        | showing key => exact absurd collection (key system found)
    · rw [checks]
      rcases checkShowable_cases (problemsOf entries) with
        ⟨shown, passes⟩ | ⟨⟨label, value, wanted, problem, long⟩, fails⟩
      · rw [passes]
        refine ⟨nofun, fun baffles => ?_⟩
        cases baffles with
        | system found collection => exact absurd collection (key _ found)
        | showing _ problem long => exact absurd ((shown _ _ _ problem).symm.trans long) nofun
      · rw [fails]
        constructor
        · rintro ⟨⟩
          exact .showing key problem long
        · intro baffles
          cases baffles with
          | system found collection => exact absurd collection (key _ found)
          | showing => rfl
  · have passes : validate document = .ok [.notMapping document.kindName] := by
      cases document with
      | dict entries => cases shapeless
      | _ => rfl
    rw [passes]
    refine ⟨nofun, fun baffles => ?_⟩
    cases baffles <;> cases shapeless

/-- A system that meets its rule can be a key. -/
theorem Valid.system (valid : Valid entries) {system : Value}
    (found : Entries.find? entries (.text "system") = some system) : system.toKey? ≠ none := by
  have meets : (Wanted.oneOf [Session.systemName]).isMet system = true :=
    valid.top ⟨"system", "system type", .oneOf [Session.systemName]⟩ List.mem_cons_self system found
  cases system with
  | text name => nofun
  | _ => cases meets

/-- A document has no problems if it is a mapping that meets all rules. -/
theorem validate_nil_iff (document : Value) :
    validate document = .ok [] ↔ ∃ entries, document = .dict entries ∧ Valid entries := by
  constructor
  · intro passes
    rcases document.entries_cases with ⟨entries, rfl⟩ | shapeless
    · refine ⟨entries, rfl, problemsOf_eq_nil_iff.mp ?_⟩
      rcases validate_cases entries with ⟨system, -, -, fails⟩ | ⟨-, checks⟩
      · rw [fails] at passes
        cases passes
      · rw [checks] at passes
        rcases checkShowable_cases (problemsOf entries) with ⟨-, shown⟩ | ⟨-, fails⟩
        · exact Except.ok.inj (shown.symm.trans passes)
        · rw [fails] at passes
          cases passes
    · cases document with
      | dict entries => cases shapeless
      | _ => cases passes
  · rintro ⟨entries, rfl, valid⟩
    rcases validate_cases entries with ⟨system, found, collection, -⟩ | ⟨-, checks⟩
    · exact absurd collection (valid.system found)
    · rw [checks, problemsOf_eq_nil_iff.mpr valid]
      rfl

/-! ### Loading -/

variable {settings : Settings} {files : Files}

theorem documentOf_json (text : String) :
    documentOf ".json" text = (Json.read text).mapError (Fault.ofJson text) := by
  unfold documentOf Library.documentOf
  rw [if_pos (beq_self_eq_true ".json")]
  cases parsed : Json.read text with
  | error problem => simp only [Library.own, parsed, Except.map, Except.mapError]
  | ok value => simp only [Library.own, parsed, Except.map, Except.mapError, Document.value_ofValue]

/-- A file with a known extension has a text that gives a document to who reads it. -/
structure Provides {A : Type} (reader : String → String → Except Fault A) (files : Files) (path : String)
    (document : A) : Prop where
  plain : path.contains '\x00' = false
  present : files.exists? path = true
  known : isKnownExtension (Text.lower (Path.extension path)) = true
  read : (files.readText path).bind (reader (Text.lower (Path.extension path))) = .ok document

/-- A file with a known extension has a text that gives a document. -/
abbrev Supplies (files : Files) (path : String) (document : Value) : Prop :=
  Provides documentOf files path document

theorem Provides.fetched {A : Type} {reader : String → String → Except Fault A} {path : String} {document : A}
    (provides : Provides reader files path document) : fetch reader files (.text path) = .document path document := by
  obtain ⟨plain, present, known, read⟩ := provides
  unfold fetch fetchFile
  simp only [plain, present, known, read, Bool.not_true, Bool.or_false, Bool.false_eq_true, if_false]

/-- A path leads to the document of a file, or to nothing, which is never a success. -/
theorem fetch_cases {A : Type} (reader : String → String → Except Fault A) (files : Files) (path : Value) :
    (∃ name document, path = .text name ∧ Provides reader files name document) ∨
      ∃ result notes, fetch reader files path = .nothing result notes ∧ result ≠ .ok true := by
  cases path with
  | text name =>
      unfold fetch fetchFile
      dsimp only
      split
      case isTrue => exact .inr ⟨_, _, rfl, nofun⟩
      case isFalse there =>
      split
      case isTrue => exact .inr ⟨_, _, rfl, nofun⟩
      case isFalse known =>
      cases read : (files.readText name).bind (reader (Text.lower (Path.extension name))) with
      | error fault =>
          dsimp only
          split <;> exact .inr ⟨_, _, rfl, nofun⟩
      | ok document =>
          simp only [Bool.or_eq_true, Bool.not_eq_true', not_or, Bool.not_eq_true, Bool.not_eq_false]
            at there known
          exact .inl ⟨name, document, rfl, there.1, there.2, known, read⟩
  | _ =>
      right
      unfold fetch
      dsimp only
      split
      · split
        · exact ⟨_, _, rfl, nofun⟩
        · split <;> exact ⟨_, _, rfl, nofun⟩
      · exact ⟨_, _, rfl, nofun⟩

/-- What is made of a document depends on what its check gives, and then on whether all its names can be
shown. -/
inductive Judged (settings : Settings) (document : Value) : Prop where
  | baffled (fault : Fault) (checked : validate document = .error fault)
      (result : (settings.loadDocument document).result = .error fault)
      (same : (settings.loadDocument document).settings = settings)
  | refused (problem : Problem) (others : List Problem)
      (checked : validate document = .ok (problem :: others))
      (result : (settings.loadDocument document).result = .ok false)
      (same : (settings.loadDocument document).settings = settings)
  | taken (entries : Entries) (mapping : document = .dict entries) (valid : Valid entries)
      (checked : validate document = .ok [])
      (laid : (settings.loadDocument document).settings = (overlay top settings entries).settings)
      (ends : (settings.loadDocument document).result = .ok true ∨
        (settings.loadDocument document).result = .error (.unfit .longNumber) ∧
          document.isShowable = false)

theorem loadDocument_judged (settings : Settings) (document : Value) : settings.Judged document := by
  cases checked : validate document with
  | error fault =>
      refine .baffled fault checked ?_ ?_ <;>
      simp only [loadDocument, checked]
  | ok problems =>
      cases problems with
      | cons problem others =>
          refine .refused problem others checked ?_ ?_ <;>
          simp only [loadDocument, checked]
      | nil =>
          obtain ⟨entries, rfl, valid⟩ := (validate_nil_iff document).mp checked
          have loads : settings.loadDocument (.dict entries) =
              ⟨(overlay top settings entries).settings,
                (overlay top settings entries).result.map fun _ => true, []⟩ := by
            simp only [loadDocument, checked]
            rfl
          refine .taken entries rfl valid checked (by rw [loads]) ?_
          rw [loads]
          refine (overlay_result top settings entries).imp ?_ ?_
          · intro whole
            rw [whole]
            rfl
          · rintro ⟨fails, hidden⟩
            rw [fails]
            exact ⟨rfl, hidden rfl⟩

/-- A document that is not taken changes nothing, so what laying keeps is kept by loading. -/
theorem loadDocument_keeps (holds : Settings → Prop) (start : holds settings) {document : Value}
    (lays : ∀ entries, document = .dict entries → Valid entries →
      holds (overlay top settings entries).settings) :
    holds (settings.loadDocument document).settings := by
  cases settings.loadDocument_judged document with
  | baffled fault checked result same => rwa [same]
  | refused problem others checked result same => rwa [same]
  | taken entries mapping valid checked laid =>
      rw [laid]
      exact lays entries mapping valid

/-- A file gives what its document gives. -/
theorem load_supplied (settings : Settings) {path : String} {document : Value}
    (supplies : Supplies files path document) :
    (settings.load files (.text path)).settings = (settings.loadDocument document).settings ∧
      (settings.load files (.text path)).result = (settings.loadDocument document).result := by
  unfold load loadFetched
  rw [supplies.fetched]
  dsimp only
  split <;> exact ⟨rfl, rfl⟩

/-- Settings are loaded from the document of a file, or nothing is loaded and nothing changes. -/
theorem load_cases (settings : Settings) (files : Files) (path : Value) :
    (∃ name document, path = .text name ∧ Supplies files name document) ∨
      (settings.load files path).result ≠ .ok true ∧ (settings.load files path).settings = settings := by
  rcases fetch_cases documentOf files path with supplied | ⟨result, notes, fetched, fails⟩
  · exact .inl supplied
  · unfold load
    rw [fetched]
    exact .inr ⟨fails, rfl⟩

/-! ### What loading ends with -/

variable {document : Value}

theorem loadDocument_checked (loads : (settings.loadDocument document).result = .ok true) :
    validate document = .ok [] := by
  cases settings.loadDocument_judged document with
  | baffled fault checked result => exact nomatch loads.symm.trans result
  | refused problem others checked result => exact nomatch loads.symm.trans result
  | taken entries mapping valid checked => exact checked

theorem loadDocument_shown (shown : document.isShowable = true) (passes : validate document = .ok []) :
    (settings.loadDocument document).result = .ok true := by
  cases settings.loadDocument_judged document with
  | baffled fault checked => exact nomatch passes.symm.trans checked
  | refused problem others checked => exact nomatch passes.symm.trans checked
  | taken entries mapping valid checked laid ends =>
      exact ends.resolve_right fun ⟨_, hidden⟩ => nomatch shown.symm.trans hidden

theorem loadDocument_false_iff : (settings.loadDocument document).result = .ok false ↔
    ∃ problem others, validate document = .ok (problem :: others) := by
  cases settings.loadDocument_judged document with
  | baffled fault checked result => simp [checked, result]
  | refused problem others checked result => simp [checked, result]
  | taken entries mapping valid checked laid ends =>
      rcases ends with loads | ⟨fails, -⟩
      · simp [checked, loads]
      · simp [checked, fails]

theorem loadDocument_fault {fault : Fault}
    (fails : (settings.loadDocument document).result = .error fault) : Baffles document fault ∨
      validate document = .ok [] ∧ fault = .unfit .longNumber ∧ document.isShowable = false := by
  cases settings.loadDocument_judged document with
  | baffled other checked result =>
      cases fails.symm.trans result
      exact .inl ((validate_error_iff document fault).mp checked)
  | refused problem others checked result => exact nomatch fails.symm.trans result
  | taken entries mapping valid checked laid ends =>
      rcases ends with loads | ⟨long, hidden⟩
      · exact nomatch fails.symm.trans loads
      · cases fails.symm.trans long
        exact .inr ⟨checked, rfl, hidden⟩

theorem loadDocument_untouched (unfit : validate document ≠ .ok []) :
    (settings.loadDocument document).settings = settings := by
  cases settings.loadDocument_judged document with
  | baffled fault checked result same => exact same
  | refused problem others checked result same => exact same
  | taken entries mapping valid checked => exact absurd checked unfit

theorem load_untouched {path : Value} (fails : (settings.load files path).result ≠ .ok true) :
    (settings.load files path).settings = settings ∨ ∃ name laid, path = .text name ∧
      Supplies files name laid ∧ validate laid = .ok [] ∧ laid.isShowable = false := by
  rcases settings.load_cases files path with ⟨name, document, rfl, supplies⟩ | ⟨-, same⟩
  · obtain ⟨kept, ends⟩ := settings.load_supplied supplies
    rw [ends] at fails
    rw [kept]
    cases checked : validate document with
    | error fault => exact .inl (loadDocument_untouched (by rw [checked]; nofun))
    | ok problems =>
        cases problems with
        | cons problem others => exact .inl (loadDocument_untouched (by rw [checked]; nofun))
        | nil =>
            have hidden : document.isShowable = false :=
              Bool.eq_false_iff.mpr fun shown => fails (loadDocument_shown shown checked)
            exact .inr ⟨name, document, rfl, supplies, checked, hidden⟩
  · exact .inl same

/-- A document is refused exactly if it has problems, and only a document without problems is loaded;
it is loaded if its numbers can be shown. It cannot be checked for one of two causes, and otherwise the
only fault is a number that cannot be shown. Settings and touched names stay as they were if a document is
refused or cannot be checked. A file is loaded as its document is, and where it is not loaded all stays as
it was, if its document is not laid in part. -/
theorem loading_atomic (settings : Settings) (document : Value) :
    let loaded := settings.loadDocument document
    (loaded.result = .ok true → validate document = .ok []) ∧
    (document.isShowable = true → validate document = .ok [] → loaded.result = .ok true) ∧
    (loaded.result = .ok false ↔ ∃ problem others, validate document = .ok (problem :: others)) ∧
    (∀ fault, validate document = .error fault ↔ Baffles document fault) ∧
    (∀ fault, loaded.result = .error fault → Baffles document fault ∨
      validate document = .ok [] ∧ fault = .unfit .longNumber ∧ document.isShowable = false) ∧
    (validate document ≠ .ok [] → loaded.settings = settings) ∧
    (∀ files path, Supplies files path document →
      (settings.load files (.text path)).settings = loaded.settings ∧
        (settings.load files (.text path)).result = loaded.result) ∧
    ∀ files path, (settings.load files path).result ≠ .ok true →
      (settings.load files path).settings = settings ∨ ∃ name laid, path = .text name ∧
        Supplies files name laid ∧ validate laid = .ok [] ∧ laid.isShowable = false := by
  intro loaded
  refine ⟨loadDocument_checked, loadDocument_shown, loadDocument_false_iff, validate_error_iff document, ?_,
    loadDocument_untouched, ?_, ?_⟩
  · exact fun fault fails => loadDocument_fault fails
  · exact fun files path supplies => settings.load_supplied supplies
  · exact fun files path fails => load_untouched fails

/-- A file whose seed is a word is refused, and nothing changes. -/
theorem loading_atomic_wordy :
    let document := Value.record [("seed", .text "dice")]
    let files : Files := ⟨[(["c.json"], .file (.ofText "\x7b\"seed\": \"dice\"\x7d"))]⟩
    let loaded := initial.load files (.text "c.json")
    Supplies files "c.json" document ∧ loaded.result = .ok false ∧ loaded.settings = initial := by
  intro document files loaded
  have named : Files.IsName "c.json" := by constructor <;> decide
  have supplies : Supplies files "c.json" document := by
    refine ⟨named.held, ?_, by decide +kernel, ?_⟩
    · simp only [Files.exists?, Files.find?, Files.locate_name files named,
        show files.node? ["c.json"] = some (.file (.ofText _)) from rfl, named.file]
      rfl
    · have extension : Text.lower (Path.extension "c.json") = ".json" := by decide +kernel
      have found : files.read "c.json" = .ok (.ofText "\x7b\"seed\": \"dice\"\x7d") :=
        Files.read_name named rfl
      have text : Files.textOf (.ofText "\x7b\"seed\": \"dice\"\x7d") =
          .ok "\x7b\"seed\": \"dice\"\x7d" := Files.textOf_ofText (by decide)
      have parsed : Json.read "\x7b\"seed\": \"dice\"\x7d" = .ok document := rfl
      rw [Files.readText, found, extension]
      simp only [bind, Except.bind, text]
      rw [documentOf_json, parsed]
      rfl
  obtain ⟨-, -, refuses, -, -, keeps, carries, -⟩ := loading_atomic initial document
  obtain ⟨kept, ends⟩ := carries files "c.json" supplies
  exact ⟨supplies, ends.trans (refuses.mpr ⟨_, _, rfl⟩), kept.trans (keeps nofun)⟩

/-- A document whose system is a list can neither be checked nor be loaded. -/
theorem listed_system_faults :
    let document := Value.record [("system", .list [])]
    validate document = .error .wrongKind ∧
      (initial.loadDocument document).result = .error .wrongKind :=
  ⟨rfl, rfl⟩

/-- A section with a long number among its keys has no problems, and yet only the entries before that key
are laid. -/
theorem long_key_laid {number : Nat} (long : Numeral.firstUnshown ≤ number) (settings : Settings)
    {old : Entries} (found : Entries.find? settings.tree (.text "logging") = some (.dict old)) :
    let document := Value.record [("logging", .dict [
      (.text "level", .text "DEBUG"), (.int number, .null)])]
    let loaded := settings.loadDocument document
    validate document = .ok [] ∧ loaded.result = .error (.unfit .longNumber) ∧
      loaded.settings.tree = Entries.put settings.tree (.text "logging")
        (.dict (Entries.put old (.text "level") (.text "DEBUG"))) := by
  intro document loaded
  have hidden : (Key.int number).toValue.isShowable = false := by
    simp only [Key.toValue, Value.isShowable, Int.natAbs_natCast, decide_eq_false_iff_not, Nat.not_lt]
    exact long
  have unnamed : below (.text "logging") (.int number) = .error (.unfit .longNumber) := by
    unfold below Value.show?
    rw [hidden]
    rfl
  have checked : validate document = .ok [] := rfl
  have named : below (.text "logging") (.text "level") = .ok (.text "logging.level") := by decide +kernel
  have first : below top (.text "logging") = .ok (.text "logging") := rfl
  simp only [loaded, loadDocument, document, Value.record, List.map, Value.entries?, Option.getD, overlay,
    overlayEntry, first, found, named, unnamed]
  exact ⟨rfl, rfl, rfl⟩

end ChipEight.Settings
