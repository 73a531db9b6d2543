/-
This file loads settings from documents and files. A document with problems has no effect.
-/

import ChipEight.Json.Writer
import ChipEight.Settings
import ChipEight.Store
import ChipEight.Value.Depth
import ChipEight.Yaml.Writer

namespace ChipEight.Settings

inductive Note where
  | ready
  | missing (path : String)
  | unknownExtension (extension : String)
  | loadFailed (fault : Fault)
  | refused (problem : Problem)
  | loaded (path : String)
  | updated (name : String) (value : Value)
  | unknownFormat (format : String)
  | saved (path : String)
  | saveFailed (fault : Fault)

namespace Note

def level : Note → Level
  | ready => .debug
  | missing _ => .error
  | unknownExtension _ => .error
  | loadFailed _ => .error
  | refused _ => .error
  | loaded _ => .info
  | updated _ _ => .debug
  | unknownFormat _ => .error
  | saved _ => .info
  | saveFailed _ => .error

def text : Note → String
  | ready => "ConfigManager initialized"
  | missing path => "Configuration file not found: " ++ path
  | unknownExtension extension => "Unsupported configuration format: " ++ extension
  | loadFailed fault => "Error loading configuration: " ++ fault.text
  | refused problem => "Configuration validation error: " ++ problem.text
  | loaded path => "Configuration loaded from " ++ path
  | updated name value => "Configuration updated: " ++ name ++ " = " ++ value.shown
  | unknownFormat format => "Unsupported configuration format: " ++ format
  | saved path => "Configuration saved to " ++ path
  | saveFailed fault => "Error saving configuration: " ++ fault.text

def record (note : Note) : Record :=
  ⟨note.level, "Chip8Emulator.ConfigManager", note.text⟩

end Note

/-- What comes of loading. -/
structure Loaded where
  settings : Settings
  result : Except Fault Bool
  notes : List Note

/-- A document without problems is laid over the settings, as far as that goes. -/
def loadDocument (settings : Settings) (document : Value) : Loaded :=
  match validate document with
  | .error fault => ⟨settings, .error fault, []⟩
  | .ok [] =>
      let laid := overlay top settings ((document.entries?).getD [])
      ⟨laid.settings, laid.result.map fun _ => true, []⟩
  | .ok problems => ⟨settings, .ok false, problems.map .refused⟩

/-! Formats -/

/-- A format of files with settings. -/
inductive Format where
  | json
  | yaml
  deriving DecidableEq, Repr

namespace Format

/-- The names that ask for a format. -/
def names : Format → List String
  | json => ["json"]
  | yaml => ["yaml", "yml"]

/-- The extensions of files that are read in a format. -/
def extensions : Format → List String
  | json => [".json"]
  | yaml => [".yaml", ".yml"]

def all : List Format := [json, yaml]

/-- The format that a name asks for, whatever its case. -/
def ofName? (name : String) : Option Format :=
  all.find? fun format => format.names.contains (Text.lower name)

end Format

/-- What turns texts of a format into documents, and what is in a store into pages. -/
structure Library where
  read : Format → String → Except Fault Document
  page : Format → Store → Cell → Json.Page

/-- A mapping as YAML. Nothing is written if it is too deep, or if not all numbers can be shown. -/
def yamlPage (entries : List (Key × Document)) : Json.Page :=
  let value := Value.dict (Document.entryValues entries)
  if Yaml.deepestWritten < value.depth then ⟨"", .error (.deep .graph)⟩
  else if value.isShowable then ⟨Yaml.write entries, .ok ()⟩
  else ⟨"", .error (.unfit .longNumber)⟩

/-- The readers and the writers of this project. The one that writes JSON takes as many calls as it needs. -/
def Library.own : Library where
  read
    | .json, text => ((Json.read text).map Document.ofValue).mapError (Fault.ofJson text)
    | .yaml, text => (Yaml.readDocument text).mapError Fault.ofYaml
  page
    | .json, store, cell => Json.page (store.look cell)
    | .yaml, store, cell => yamlPage (store.document cell).entries

/-- The document of a text by the extension of its file. An empty YAML document is a mapping. -/
def Library.documentOf (library : Library) (extension text : String) : Except Fault Document :=
  if extension == ".json" then library.read .json text
  else do
    let document ← library.read .yaml text
    pure (if document.value.isTrue then document else .mapping none [])

def documentOf (extension text : String) : Except Fault Value :=
  (Library.own.documentOf extension text).map Document.value

def isKnownExtension (extension : String) : Bool :=
  extension ∈ [".json", ".yaml", ".yml"]

/-! Files -/

/-- What a path leads to: a document, or an answer without one. -/
inductive Fetched (A : Type) where
  | document (path : String) (document : A)
  | nothing (result : Except Fault Bool) (notes : List Note)

/-- Reads the document of a file. Problems of files and of their contents are only noted. -/
def fetchFile {A : Type} (read : String → String → Except Fault A) (files : Files) (path : String) : Fetched A :=
  let extension := Text.lower (Path.extension path)
  if path.contains '\x00' || !files.exists? path then .nothing (.ok false) [.missing path]
  else if !isKnownExtension extension then .nothing (.ok false) [.unknownExtension extension]
  else
    match (files.readText path).bind (read extension) with
    | .error fault =>
        if fault.isFile || fault.isUnfit then .nothing (.ok false) [.loadFailed fault]
        else .nothing (.error fault) []
    | .ok document => .document path document

/-- Numbers of open files have thirty-two bits. -/
def isFileNumber (number : Int) : Bool :=
  Bits.isSigned 32 number

/-- Numbers of open files are no files that are found; other values are no paths. -/
def fetch {A : Type} (read : String → String → Except Fault A) (files : Files) (path : Value) : Fetched A :=
  match path with
  | .text name => fetchFile read files name
  | other =>
      match other.whole? with
      | some number =>
          if !isFileNumber number then .nothing (.error .tooLarge) []
          else if 0 ≤ number ∧ number ≤ 2 then .nothing (.error .wrongKind) []
          else .nothing (.ok false) [.missing other.shown]
      | none => .nothing (.error .wrongKind) []

/-- Loads what a path leads to. -/
def loadFetched (settings : Settings) (fetched : Fetched Value) : Loaded :=
  match fetched with
  | .nothing result notes => ⟨settings, result, notes⟩
  | .document path document =>
      let loaded := settings.loadDocument document
      match loaded.result with
      | .ok true => { loaded with notes := loaded.notes ++ [.loaded path] }
      | _ => loaded

def loadFile (settings : Settings) (files : Files) (path : String) : Loaded :=
  settings.loadFetched (fetchFile documentOf files path)

def load (settings : Settings) (files : Files) (path : Value) : Loaded :=
  settings.loadFetched (fetch documentOf files path)

/-- New settings, with the document of a file if a path is given. -/
def make (files : Files) (path : Value) : Loaded :=
  let loaded := if path.isTrue then initial.load files path else ⟨initial, .ok true, []⟩
  { loaded with notes := loaded.notes ++ (match loaded.result with
    | .ok _ => [.ready]
    | .error _ => []) }

/-- What is noted when a name without a default is not reset. -/
def resetNotes (name : String) : List Note :=
  match find? (.dict defaults) (parts name) with
  | some value => [.updated name value]
  | none => []

end ChipEight.Settings
