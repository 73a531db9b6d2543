/-
This file holds the settings of a user: a tree of mappings that starts from defaults, is overlaid by
documents, and remembers which of its settings were touched.
-/

import ChipEight.Recorder
import ChipEight.Session
import ChipEight.Value.Order

namespace ChipEight

/-- The tree of settings and the dotted names of those that were touched, each once. A key at the top
is its own name, also one that is no text. -/
structure Settings where
  tree : Entries
  modified : List Key

namespace Settings

def levelNames : List String := Level.all.map Level.name

def sectionNames : List String := ["logging", "recording", "output"]

/-- The settings of somebody who has touched nothing. -/
def defaults : Entries := [
  (.text "system", .text Session.systemName),
  (.text "cycles_per_frame", .int Session.usualCyclesPerFrame),
  (.text "seed", .int Machine.usualSeed),
  (.text "logging", Value.record [
    ("level", .text "INFO"), ("file", .null), ("console", .bool true)]),
  (.text "recording", Value.record [
    ("enabled", .bool false), ("max_history", .int Recorder.usualLimit),
    ("compression_ratio", .int Recorder.usualRatio), ("format", .text "json")]),
  (.text "output", Value.record [
    ("dump_display", .bool false), ("plot", .bool false), ("directory", .text "./output")])]

def initial : Settings := ⟨defaults, []⟩

/-! Validation -/

/-- What a setting has to be. -/
inductive Wanted where
  | oneOf (names : List String)
  | positive
  | notNegative
  | truth
  | mapping
  | path
  deriving DecidableEq, Repr

namespace Wanted

/-- Truth values are no numbers here. -/
def isMet (wanted : Wanted) (value : Value) : Bool :=
  match wanted, value with
  | oneOf names, .text name => names.contains name
  | positive, .int number => 1 ≤ number
  | notNegative, .int number => 0 ≤ number
  | truth, .bool _ => true
  | mapping, .dict _ => true
  | path, .text _ => true
  | _, _ => false

def text : Wanted → String
  | oneOf names => "Valid options: " ++ ", ".intercalate names
  | positive => "Must be a positive integer"
  | notNegative => "Must be a non-negative integer"
  | truth => "Must be a boolean"
  | mapping => "Must be a mapping"
  | path => "Must be a path string"

end Wanted

/-- Why a document is refused. -/
inductive Problem where
  | notMapping (kindName : String)
  | misfit (label : String) (value : Value) (wanted : Wanted)

def Problem.text : Problem → String
  | notMapping kindName => "Configuration must be a mapping, got " ++ kindName
  | misfit label value wanted =>
      let shown := match wanted with
        | .mapping => value.quoted
        | _ => value.shown
      "Invalid " ++ label ++ ": " ++ shown ++ ". " ++ wanted.text

/-- What a setting of a section has to be, and its name in messages. -/
structure Rule where
  name : String
  label : String
  wanted : Wanted

def topRules : List Rule := [
  ⟨"system", "system type", .oneOf [Session.systemName]⟩,
  ⟨"cycles_per_frame", "cycles_per_frame", .positive⟩,
  ⟨"seed", "seed", .notNegative⟩] ++
  sectionNames.map fun name => ⟨name, name, .mapping⟩

def sectionRules : List (String × List Rule) := [
  ("logging", [
    ⟨"level", "logging.level", .oneOf levelNames⟩,
    ⟨"console", "logging.console", .truth⟩]),
  ("recording", [
    ⟨"enabled", "recording.enabled", .truth⟩,
    ⟨"max_history", "recording.max_history", .positive⟩,
    ⟨"compression_ratio", "recording.compression_ratio", .positive⟩,
    ⟨"format", "recording.format", .oneOf Recorder.formatNames⟩]),
  ("output", [
    ⟨"dump_display", "output.dump_display", .truth⟩,
    ⟨"plot", "output.plot", .truth⟩,
    ⟨"directory", "output.directory", .path⟩])]

/-- The rules that the present settings do not meet; missing settings meet all. -/
def misfits (entries : Entries) (rules : List Rule) : List Problem :=
  rules.filterMap fun rule =>
    match Entries.find? entries (.text rule.name) with
    | some value =>
        if rule.wanted.isMet value then none else some (.misfit rule.label value rule.wanted)
    | none => none

/-- The problems of the sections that are mappings. -/
def sectionProblems (entries : Entries) : List Problem :=
  sectionRules.flatMap fun (name, rules) =>
    match Entries.find? entries (.text name) with
    | some (.dict inner) => misfits inner rules
    | _ => []

/-- The problems, unless one of them has a value that cannot be shown. -/
def checkShowable (problems : List Problem) : Except Fault (List Problem) :=
  let isShowable : Problem → Bool
    | .notMapping _ => true
    | .misfit _ value _ => value.isShowable
  if problems.all isShowable then .ok problems else .error (.unfit .longNumber)

/-- All problems of a document. A system must be a value that can be a key. -/
def validate (document : Value) : Except Fault (List Problem) :=
  match document with
  | .dict entries =>
      match Entries.find? entries (.text "system") with
      | some (.list _) => .error .wrongKind
      | some (.dict _) => .error .wrongKind
      | _ => checkShowable (misfits entries topRules ++ sectionProblems entries)
  | other => .ok [.notMapping other.kindName]

/-! Overlaying -/

/-- The path of no key. -/
def top : Key := .text ""

/-- The name of a key below a path; below a path that is empty or zero it stands alone. A name that is
put together has no number that is too long to be shown. -/
def below (path key : Key) : Except Fault Key :=
  if path.toValue.isTrue then do
    let outer ← path.toValue.show?
    let inner ← key.toValue.show?
    pure (.text (outer ++ "." ++ inner))
  else .ok key

/-- A name that is known is not noted again. -/
def note (modified : List Key) (name : Key) : List Key :=
  if modified.any fun other => other.same name then modified else modified ++ [name]

/-- What comes of laying entries over settings; those before a fault are laid. -/
structure Laid where
  settings : Settings
  result : Except Fault Unit

mutual
/-- A mapping over a mapping is laid over it entry by entry; any other value takes the place of the
old one, which touches it. -/
def overlayEntry (path key : Key) (settings : Settings) (value : Value) : Laid :=
  match below path key with
  | .error fault => ⟨settings, .error fault⟩
  | .ok name =>
      match value with
      | .dict inner =>
          match Entries.find? settings.tree key with
          | some (.dict old) =>
              let merged := overlay name ⟨old, settings.modified⟩ inner
              ⟨⟨Entries.put settings.tree key (.dict merged.settings.tree), merged.settings.modified⟩,
                merged.result⟩
          | _ => ⟨⟨Entries.put settings.tree key (.dict inner), note settings.modified name⟩, .ok ()⟩
      | other => ⟨⟨Entries.put settings.tree key other, note settings.modified name⟩, .ok ()⟩

/-- The settings below a path after entries are laid over them. -/
def overlay (path : Key) (settings : Settings) : List (Key × Value) → Laid
  | [] => ⟨settings, .ok ()⟩
  | (key, value) :: rest =>
      let laid := overlayEntry path key settings value
      match laid.result with
      | .ok () => overlay path laid.settings rest
      | .error _ => laid
end

/-! Dotted names -/

/-- The parts of a dotted name. -/
def parts (name : String) : List String := name.splitOn "."

/-- The value that parts of a name lead to. -/
def find? (value : Value) : List String → Option Value
  | [] => some value
  | part :: rest =>
      match value.field? part with
      | some inner => find? inner rest
      | none => none

def get (settings : Settings) (name : String) (missing : Value) : Value :=
  (find? (.dict settings.tree) (parts name)).getD missing

/-- The entries with a value at the end of a path; what stands in its way becomes a mapping. -/
def put (entries : Entries) (value : Value) : List String → Entries
  | [] => entries
  | [last] => Entries.put entries (.text last) value
  | part :: rest =>
      let inner := ((Entries.find? entries (.text part)).bind Value.entries?).getD []
      Entries.put entries (.text part) (.dict (put inner value rest))

def set (settings : Settings) (name : String) (value : Value) : Settings :=
  ⟨put settings.tree value (parts name), note settings.modified (.text name)⟩

/-- All settings are as at first. -/
def resetAll (_ : Settings) : Settings := initial

/-- The setting or the section of a name is as at first; names without a default change nothing. -/
def reset (settings : Settings) (name : String) : Settings :=
  match find? (.dict defaults) (parts name) with
  | none => settings
  | some value =>
      let changed := settings.set name value
      { changed with modified := changed.modified.filter fun other => !other.same (.text name) }

/-- The names of the settings that were touched, in order if they have one. -/
def touched (settings : Settings) : Except Fault Value :=
  match Key.sorted? settings.modified with
  | some names => .ok (.list (names.map Key.toValue))
  | none => .error .wrongKind

/-- The settings of the system with those of the user. -/
def systemSettings (settings : Settings) : Except Fault Value :=
  match (settings.get "system" (.text Session.systemName)).toKey? with
  | none => .error .wrongKind
  | some key =>
      let usual := if key == .text Session.systemName then
        (Session.usualSettings.entries?).getD [] else []
      let cycles := settings.get "cycles_per_frame" (.int Session.usualCyclesPerFrame)
      let seed := settings.get "seed" (.int Machine.usualSeed)
      .ok (.dict (Entries.put (Entries.put usual (.text "cycles_per_frame") cycles)
        (.text "seed") seed))

end Settings

end ChipEight
