/-
This file shows that settings which took a document are fit for those who use them: every documented setting
is there and of the kind that a run relies on, but for the log file. No rule asks anything of it, so it is what
the document says, and whoever opens it finds out.
-/

import ChipEight.Journal
import ChipEight.Proofs.Recorder.Steady
import ChipEight.Proofs.Settings.Merging
import ChipEight.Proofs.Settings.Paths

namespace ChipEight.Settings

variable {settings : Settings} {tree : Entries} {document : Value}

/-! ### Kinds of settings -/

/-- What a value that is wanted so looks like. -/
inductive Wanted.Meets : Wanted → Value → Prop where
  | oneOf {names : List String} {name : String} (known : name ∈ names) : Meets (oneOf names) (.text name)
  | positive {number : Int} (large : 1 ≤ number) : Meets positive (.int number)
  | notNegative {number : Int} (large : 0 ≤ number) : Meets notNegative (.int number)
  | truth (flag : Bool) : Meets truth (.bool flag)
  | mapping (entries : Entries) : Meets mapping (.dict entries)
  | path (name : String) : Meets path (.text name)

theorem isMet_iff (wanted : Wanted) (value : Value) : wanted.isMet value = true ↔ wanted.Meets value := by
  constructor
  · intro met
    unfold Wanted.isMet at met
    split at met
    case h_1 => exact .oneOf (List.contains_iff_mem.mp met)
    case h_2 => exact .positive (of_decide_eq_true met)
    case h_3 => exact .notNegative (of_decide_eq_true met)
    case h_4 => exact .truth _
    case h_5 => exact .mapping _
    case h_6 => exact .path _
    case h_7 => cases met
  · intro meets
    cases meets with
    | oneOf known => exact List.contains_iff_mem.mpr known
    | positive large => exact decide_eq_true large
    | notNegative large => exact decide_eq_true large
    | truth | mapping | path => rfl

/-- The documented settings but the log file, and what they have to be. -/
def documented : List (List String × Wanted) := [
  (["system"], .oneOf [Session.systemName]),
  (["cycles_per_frame"], .positive),
  (["seed"], .notNegative),
  (["logging", "level"], .oneOf levelNames),
  (["logging", "console"], .truth),
  (["recording", "enabled"], .truth),
  (["recording", "max_history"], .positive),
  (["recording", "compression_ratio"], .positive),
  (["recording", "format"], .oneOf Recorder.formatNames),
  (["output", "dump_display"], .truth),
  (["output", "plot"], .truth),
  (["output", "directory"], .path)]

/-- What the rules ask of settings at the top and of those in sections. -/
def ruled : List (List String × Wanted) :=
  topRules.map (fun rule => ([rule.name], rule.wanted)) ++
    sectionRules.flatMap fun (name, rules) => rules.map fun rule => ([name, rule.name], rule.wanted)

/-- What rules ask for is there. -/
theorem Sturdy.meets (sturdy : Sturdy tree) {path : List String} {wanted : Wanted}
    (asked : (path, wanted) ∈ ruled) : ∃ value, find? (.dict tree) path = some value ∧ wanted.Meets value := by
  rcases List.mem_append.mp asked with outer | inner
  · obtain ⟨rule, listed, same⟩ := List.mem_map.mp outer
    cases same
    have first : ∀ rule ∈ topRules, Key.text rule.name ∈ Entries.names defaults := by decide
    obtain ⟨value, found⟩ := Option.isSome_iff_exists.mp (sturdy.keys _ (first rule listed))
    exact ⟨value, (find?_top tree _).trans found, (isMet_iff _ _).mp (sturdy.top rule listed value found)⟩
  · obtain ⟨⟨name, rules⟩, within, held⟩ := List.mem_flatMap.mp inner
    obtain ⟨rule, listed, same⟩ := List.mem_map.mp held
    cases same
    have first : ∀ part ∈ sectionRules, ∀ rule ∈ part.2, Key.text rule.name ∈ sectionKeys part.1 := by decide
    obtain ⟨entries, present, meets, complete⟩ := sturdy.sections name rules within
    obtain ⟨value, found⟩ := Option.isSome_iff_exists.mp (complete _ (first _ within rule listed))
    exact ⟨value, (find?_inner _ present).trans found, (isMet_iff _ _).mp (meets rule listed value found)⟩

/-! ### Settings without a rule -/

/-- A setting of a section is what a document that is taken says, or what it was at first. -/
theorem taken_inner {name : String} {rules : List Rule} (listed : (name, rules) ∈ sectionRules) (part : String)
    (distinct : document.Distinct) (taken : (initial.loadDocument document).result = .ok true) :
    find? (.dict (initial.loadDocument document).settings.tree) [name, part] =
      (find? document [name, part]).or (find? (.dict defaults) [name, part]) := by
  obtain ⟨entries, rfl, valid, ends, laid⟩ := loadDocument_laid taken
  obtain ⟨first, present, -⟩ := initial_sturdy.sections name rules listed
  have flat := (defaults_section present).2.2
  have before : find? (.dict defaults) [name, part] = Entries.find? first (.text part) :=
    find?_inner part present
  rw [laid, before]
  cases overlay_laidAt distinct.faces ends (.text name) with
  | kept absent stands =>
      have none : find? (.dict entries) [name, part] = none := by rw [find?, Value.field?, absent]
      rw [none, find?_inner part (stands.trans present), Option.none_or]
  | placed value given apart stands =>
      obtain ⟨inner, rfl⟩ := isMet_mapping (valid.top _ (section_mapping listed) value given)
      exact absurd present (apart inner first rfl)
  | merged inner old title modified given found whole stands =>
      cases found.symm.trans present
      obtain ⟨_, member, -⟩ := Entries.find?_entry given
      rw [find?_inner part stands, find?_inner part given]
      cases overlay_laidAt (distinct.part member).faces whole (.text part) with
      | kept absent stays => rw [absent, stays, Option.none_or]
      | placed value told apart stays => rw [told, stays, Option.some_or]
      | merged more held other modified told there => exact absurd there (flat _ _)

/-! ### Users of the settings -/

section

variable {value : Value} {wanted : Wanted}

theorem meets_oneOf {names : List String} (meets : (Wanted.oneOf names).Meets value) :
    ∃ name ∈ names, value = .text name := by
  cases meets with
  | oneOf known => exact ⟨_, known, rfl⟩

theorem meets_positive (meets : Wanted.positive.Meets value) :
    ∃ number : Int, 1 ≤ number ∧ value = .int number := by
  cases meets with
  | positive large => exact ⟨_, large, rfl⟩

theorem meets_notNegative (meets : Wanted.notNegative.Meets value) :
    ∃ number : Int, 0 ≤ number ∧ value = .int number := by
  cases meets with
  | notNegative large => exact ⟨_, large, rfl⟩

theorem Sturdy.get_top (sturdy : Sturdy settings.tree) (name : String) (asked : ([name], wanted) ∈ ruled)
    (plain : '.' ∉ name.toList) (missing : Value) : wanted.Meets (settings.get name missing) := by
  obtain ⟨value, found, meets⟩ := sturdy.meets asked
  rw [get, parts_plain plain, found, Option.getD_some]
  exact meets

theorem Sturdy.get_inner (sturdy : Sturdy settings.tree) (outer inner : String)
    (asked : ([outer, inner], wanted) ∈ ruled) (first : '.' ∉ outer.toList) (second : '.' ∉ inner.toList)
    (missing : Value) : wanted.Meets (settings.get (outer ++ "." ++ inner) missing) := by
  obtain ⟨value, found, meets⟩ := sturdy.meets asked
  rw [get, parts_pair outer inner first second, found, Option.getD_some]
  exact meets

end

/-- The name of a level stands for its number. -/
theorem threshold_level {name : String} (known : name ∈ levelNames) :
    ∃ level : Level, Level.threshold (.text name) = .ok level.number := by
  obtain ⟨level, -, rfl⟩ := List.mem_map.mp known
  exact ⟨level, by cases level <;> rfl⟩

/-- A recorder takes a limit unless it is beyond all indexes. -/
theorem make_bounded {limit : Int} (large : 1 ≤ limit) (ratio : Int) :
    (∃ recorder, Recorder.make (.int limit) (.int ratio) .null = .ok recorder) ∨
      Slice.isIndex limit = false := by
  cases small : Slice.isIndex limit with
  | false => exact .inr rfl
  | true =>
      have bound : Recorder.limitOf (.int limit) = .ok (some limit.toNat) := by
        simp only [Recorder.limitOf, Value.whole?, small, Bool.not_true, Bool.false_eq_true, if_false]
        exact if_neg (by omega)
      exact .inl ⟨_, Recorder.make_whole ratio .null bound⟩

/-- There is a session of the system with any size of frames and any seed that is not negative, if there is room for
the usual display. -/
theorem session_made {cycles : Value} {number : Int} (large : 0 ≤ number)
    (system : settings.get "system" (.text Session.systemName) = .text Session.systemName)
    (pace : settings.get "cycles_per_frame" (.int Session.usualCyclesPerFrame) = cycles)
    (seed : settings.get "seed" (.int Machine.usualSeed) = .int number) :
    ∃ overrides, settings.systemSettings = .ok overrides ∧ ∀ room, Display.usualPixels ≤ room →
      ∃ session, Session.make room (.text Session.systemName) overrides = .ok session := by
  have words : RandomBytes.numberWords number = .ok (RandomBytes.seedWords number.toNat) :=
    if_neg (Int.not_lt.mpr large)
  have random : RandomBytes.ofValue (.int number) =
      .ok (RandomBytes.ofWords (RandomBytes.seedWords number.toNat)) := by
    rw [RandomBytes.ofValue, RandomBytes.partWords, words]
    rfl
  let usual := (Session.usualSettings.entries?).getD []
  let overrides := Entries.put (Entries.put usual (.text "cycles_per_frame") cycles) (.text "seed") (.int number)
  have given : settings.systemSettings = .ok (.dict overrides) := by
    rw [systemSettings, system, pace, seed]
    rfl
  have laid : Session.settingsOf (.text Session.systemName) (.dict overrides) =
      .ok (Entries.putAll usual overrides) := rfl
  have seeded : Session.setting (Entries.putAll usual overrides) "seed" (.int Machine.usualSeed) =
      .int number := rfl
  refine ⟨.dict overrides, given, fun room enough => ?_⟩
  have shown : Session.displayOf room (Session.setting (Entries.putAll usual overrides) "resolution"
      (.ints [Display.usualWidth, Display.usualHeight])) =
        .ok (Display.blank Display.usualWidth Display.usualHeight) := if_neg (Nat.not_lt.mpr enough)
  unfold Session.make
  simp only [laid, bind, Except.bind, shown, seeded, random]
  exact ⟨_, rfl⟩

/-- A log file that is no path cannot be opened. -/
theorem setFile_other {path : Value} (given : path.isTrue = true) (other : ∀ name, path ≠ .text name)
    (journal : Journal) (files : Files) :
    (journal.setFile files path).result = .error (.notPath path.kindName) := by
  simp only [Journal.setFile, given, Bool.not_true, Bool.false_eq_true, if_false]

/-- A document that is taken by the first settings leaves all documented settings but the log file there and
as they have to be: the level is one that a journal knows, a session is made where there is room for the usual
display, and so is a recorder, if its limit
is no number beyond all indexes. The log file is what the document says, or none; if that is neither a path
nor empty, a journal fails with it. -/
theorem taken_fit (distinct : document.Distinct) (taken : (initial.loadDocument document).result = .ok true) :
    let settings := (initial.loadDocument document).settings
    (∀ path wanted, (path, wanted) ∈ documented →
      ∃ value, find? (.dict settings.tree) path = some value ∧ wanted.Meets value) ∧
    (∃ level : Level, Level.threshold (settings.get "logging.level" (.text Level.info.name)) =
      .ok level.number) ∧
    (∃ overrides, settings.systemSettings = .ok overrides ∧ ∀ room, Display.usualPixels ≤ room →
      ∃ session, Session.make room (settings.get "system" .null) overrides = .ok session) ∧
    (∃ limit ratio : Int, settings.get "recording.max_history" .null = .int limit ∧ 1 ≤ limit ∧
      settings.get "recording.compression_ratio" .null = .int ratio ∧ 1 ≤ ratio ∧
      ((∃ recorder, Recorder.make (.int limit) (.int ratio) .null = .ok recorder) ∨
        Slice.isIndex limit = false)) ∧
    settings.get "logging.file" .null = (find? document ["logging", "file"]).getD .null ∧
    ∀ (journal : Journal) (files : Files), (settings.get "logging.file" .null).isTrue = true →
      (∀ name, settings.get "logging.file" .null ≠ .text name) →
      (journal.setFile files (settings.get "logging.file" .null)).result =
        .error (.notPath (settings.get "logging.file" .null).kindName) := by
  intro settings
  have sturdy : Sturdy settings.tree := initial_sturdy.loadDocument distinct
  have listed : ∀ entry ∈ documented, entry ∈ ruled := by decide
  have level : (Wanted.oneOf levelNames).Meets (settings.get "logging.level" (.text Level.info.name)) :=
    sturdy.get_inner "logging" "level" (by decide) (by decide) (by decide) _
  have system (missing : Value) : (Wanted.oneOf [Session.systemName]).Meets (settings.get "system" missing) :=
    sturdy.get_top "system" (by decide) (by decide) missing
  have seed : Wanted.notNegative.Meets (settings.get "seed" (.int Machine.usualSeed)) :=
    sturdy.get_top "seed" (by decide) (by decide) _
  have limit : Wanted.positive.Meets (settings.get "recording.max_history" .null) :=
    sturdy.get_inner "recording" "max_history" (by decide) (by decide) (by decide) _
  have ratio : Wanted.positive.Meets (settings.get "recording.compression_ratio" .null) :=
    sturdy.get_inner "recording" "compression_ratio" (by decide) (by decide) (by decide) _
  refine ⟨fun path wanted asked => sturdy.meets (listed _ asked), ?_, ?_, ?_, ?_,
    fun journal files given other => setFile_other given other journal files⟩
  · obtain ⟨name, known, same⟩ := meets_oneOf level
    rw [same]
    exact threshold_level known
  · obtain ⟨name, known, same⟩ := meets_oneOf (system .null)
    obtain ⟨usual, here, also⟩ := meets_oneOf (system (.text Session.systemName))
    obtain ⟨number, large, seeded⟩ := meets_notNegative seed
    cases List.mem_singleton.mp known
    cases List.mem_singleton.mp here
    rw [same]
    exact session_made large also rfl seeded
  · obtain ⟨most, large, bounded⟩ := meets_positive limit
    obtain ⟨step, whole, stepped⟩ := meets_positive ratio
    exact ⟨most, step, bounded, large, stepped, whole, make_bounded large step⟩
  · have file := taken_inner (List.mem_cons_self : ("logging", _) ∈ sectionRules) "file" distinct taken
    have first : find? (.dict defaults) ["logging", "file"] = some .null := rfl
    have named : parts "logging.file" = ["logging", "file"] := parts_pair "logging" "file" (by decide) (by decide)
    rw [get, named, file, first]
    cases find? document ["logging", "file"] <;> rfl

/-- A document with a level and a log file. -/
theorem taken_fit_logged :
    let document := Value.record [("logging", Value.record [("level", .text "DEBUG"), ("file", .text "run.log")])]
    let loaded := initial.loadDocument document
    document.Distinct ∧ loaded.result = .ok true ∧
      loaded.settings.get "logging.file" .null = .text "run.log" ∧
      ∃ value, find? (.dict loaded.settings.tree) ["logging", "level"] = some value ∧
        (Wanted.oneOf levelNames).Meets value := by
  intro document loaded
  have inner : (Value.record [("level", .text "DEBUG"), ("file", .text "run.log")]).Distinct :=
    .dict (by decide) (List.forall_mem_cons.mpr ⟨.single rfl, List.forall_mem_singleton.mpr (.single rfl)⟩)
  have distinct : document.Distinct := .dict (by decide) (List.forall_mem_singleton.mpr inner)
  have taken : loaded.result = .ok true := rfl
  obtain ⟨fit, -, -, -, file, -⟩ := taken_fit distinct taken
  exact ⟨distinct, taken, file, fit ["logging", "level"] (.oneOf levelNames) (by decide)⟩

/-- A number is taken for the log file, and then it cannot be opened. -/
theorem numbered_file_taken :
    let document := Value.record [("logging", Value.record [("file", .int 5)])]
    let loaded := initial.loadDocument document
    document.Distinct ∧ loaded.result = .ok true ∧
      find? (.dict loaded.settings.tree) ["logging", "file"] = some (.int 5) ∧
      (Journal.initial.setFile ⟨[]⟩ (loaded.settings.get "logging.file" .null)).result =
        .error (.notPath "int") := by
  intro document loaded
  have named : parts "logging.file" = ["logging", "file"] := parts_pair "logging" "file" (by decide) (by decide)
  have inner : (Value.record [("file", .int 5)]).Distinct :=
    .dict (by decide) (List.forall_mem_singleton.mpr (.single rfl))
  have found : find? (.dict loaded.settings.tree) ["logging", "file"] = some (.int 5) := rfl
  refine ⟨.dict (by decide) (List.forall_mem_singleton.mpr inner), rfl, found, ?_⟩
  rw [get, named, found]
  rfl

end ChipEight.Settings
