/-
This file saves the history of a recorder and loads it again: as an archive, as JSON, and, for other
programs to read, as a table with a line for each snapshot.
-/

import ChipEight.Fault.Raised
import ChipEight.Files
import ChipEight.Json.Writer
import ChipEight.Recorder.Query
import ChipEight.Text.LowerCase
import ChipEight.Value.Depth

namespace ChipEight.Recorder

/-- All that is saved of a recorder. -/
def toValue (recorder : Recorder) : Except Fault Value := do
  let statistics ← recorder.statistics
  pure (Value.record [("history", .list recorder.history.toList),
    ("compressed", recorder.compressed), ("statistics", statistics)])

/-- A line of a table. -/
def tableLine (cells : List String) : String := ",".intercalate cells ++ "\n"

/-- The names of a snapshot that have columns of their own. -/
def fieldNames : List String := ["cycle", "pc", "opcode"]

def header (names : List String) : String :=
  tableLine ("record_idx" :: (fieldNames ++ names.map fun name => "reg_" ++ name))

/-- What a mapping has under a name, as it is shown; what it does not have is left empty. -/
def cellOf (value : Value) (name : String) : Except Fault String := do
  (← value.getOr name (.text "")).show?

/-- The line of a snapshot. -/
def row (names : List String) (index : Nat) (state : Value) : Except Fault String := do
  let registers ← state.getOr "registers" (.dict [])
  let fields ← fieldNames.mapM (cellOf state)
  let values ← names.mapM (cellOf registers)
  Fault.encoded (tableLine (toString index :: (fields ++ values)))

/-- The lines up to the first snapshot that cannot be written, and why it cannot. -/
def rows (names : List String) (index : Nat) : List Value → String × Except Fault Unit
  | [] => ("", .ok ())
  | state :: rest =>
      match row names index state with
      | .error fault => ("", .error fault)
      | .ok line =>
          let (lines, result) := rows names (index + 1) rest
          (line ++ lines, result)

/-- The files after an action of the recorder, its result, and what there is to note. -/
structure Saved where
  files : Files
  result : Except Fault Bool
  notes : List Note

/-- What comes of saving that fails: problems of files and of kinds are only noted. -/
def saveFailure (files : Files) (fault : Fault) : Saved :=
  if fault.isFile || fault.isKind then ⟨files, .ok false, [.saveFailed fault]⟩
  else ⟨files, .error fault, []⟩

/-- The table of a history, as far as it can be written. -/
def table (recorder : Recorder) : Except Fault Json.Page := do
  let names ← recorder.sortedRegisters
  match Fault.encoded (header names) with
  | .error fault => pure ⟨"", .error fault⟩
  | .ok titles =>
      let (lines, result) := rows names 0 recorder.history.toList
      pure ⟨titles ++ lines, result⟩

/-- Writes content, after which a fault of its making counts. -/
def writeContent (files : Files) (path : String) (format : Value) (content : Content)
    (result : Except Fault Unit) : Saved :=
  match files.write path content, result with
  | .error fault, _ => saveFailure files fault
  | .ok written, .error fault => saveFailure written fault
  | .ok written, .ok () => ⟨written, .ok true, [.saved path format]⟩

/-- How deep values may be inside one another before the stack of the host ends: on a page, and in an
archive. The counts of a recorder are never too deep. -/
structure Depths where
  page : Nat
  archive : Nat
  counts : 4 ≤ page ∧ 4 ≤ archive

/-- The depths of a host that is set up as usual. -/
def Depths.usual : Depths := ⟨498, 498, by decide⟩

/-- Writes the content that belongs to a format as far as it goes. Nothing is written of what is too
deep. -/
def write (recorder : Recorder) (depths : Depths) (files : Files) (path : String) (format : Value) : Saved :=
  match recorder.toValue with
  | .error fault => saveFailure files fault
  | .ok value =>
      match format with
      | .text "pickle" =>
          if value.depth ≤ depths.archive then writeContent files path format (.archive value) (.ok ())
          else writeContent files path format (.ofText "") (.error (.deep .archive))
      | .text "json" =>
          let page := if value.depth ≤ depths.page then Json.page value else ⟨"", .error (.deep .page)⟩
          writeContent files path format (.ofText page.text) page.result
      | .text "csv" =>
          match recorder.table with
          | .error fault => saveFailure files fault
          | .ok page => writeContent files path format (.ofText page.text) page.result
      | other => ⟨files, .ok false, [.unknownFormat other]⟩

/-- Saves the history in a format. The directory is made first, whatever the format. -/
def save (recorder : Recorder) (depths : Depths) (files : Files) (path format : Value) : Saved :=
  match path with
  | .text name =>
      let parent := files.makeParent name
      match parent.result with
      | .error fault => saveFailure parent.files fault
      | .ok () => recorder.write depths parent.files name format
  | other => ⟨files, .ok false, [.saveFailed (.notPath other.kindName)]⟩

/-- What is wrong with bytes that are no archive, by the first of them. Each of these asks for something
to work on that is not there yet, or for more than what follows. -/
def brokenSteps : List (String × List UInt8) := [
  ("unpickling stack underflow",
    [0x30, 0x32, 0x52, 0x61, 0x62, 0x73, 0x81, 0x85, 0x86, 0x87, 0x92, 0x93, 0x98]),
  ("could not find MARK", [0x31, 0x64, 0x65, 0x69, 0x6c, 0x6f, 0x74, 0x75, 0x90, 0x91]),
  ("pickle data was truncated",
    [0x43, 0x54, 0x55, 0x58, 0x63, 0x67, 0x6a, 0x70, 0x80, 0x8a, 0x8b, 0x8c, 0x8d, 0x95])]

/-- What is wrong with bytes that start with a step that nothing here takes. -/
def brokenText (first : UInt8) : String :=
  match brokenSteps.find? fun entry => entry.2.contains first with
  | some (text, _) => text
  | none =>
      if 0x20 ≤ first ∧ first ≤ 0x7e ∧ first ≠ 0x27 ∧ first ≠ 0x5c then
        "invalid load key, '" ++ String.ofList [Char.ofNat first.toNat] ++ "'."
      else "invalid load key, '\\x" ++ (Hex.padded 2 first.toNat).map Char.toLower ++ "'."

def broken {A : Type} (first : UInt8) : Except Fault A :=
  .error (.brokenArchive (brokenText first))

/-- The value of bytes after the newest of the values before them. Archives that a recorder wrote are kept as
values. Of others only the smallest are read from their bytes: one that has its first step elsewhere, though a
host might read it, is taken for a broken one. -/
def ofBytes (newest : Option Value) : List UInt8 → Except Fault Value
  | [] => .error .emptyArchive
  | 0x80 :: version :: rest =>
      if 5 < version then
        .error (.brokenArchive ("unsupported pickle protocol: " ++ toString version.toNat))
      else ofBytes newest rest
  | 0x4e :: rest => ofBytes (some .null) rest
  | 0x88 :: rest => ofBytes (some (.bool true)) rest
  | 0x89 :: rest => ofBytes (some (.bool false)) rest
  | 0x4b :: number :: rest => ofBytes (some (.int number.toNat)) rest
  | 0x5d :: rest => ofBytes (some (.list [])) rest
  | 0x7d :: rest => ofBytes (some (.dict [])) rest
  | first :: _ =>
      match first, newest with
      | 0x2e, some value => .ok value
      | 0x2e, none => broken 0x30
      | _, _ => broken first

/-- The value that a file holds as an archive. -/
def ofArchive (content : Content) : Except Fault Value :=
  match content with
  | .archive value => .ok value
  | .bytes data => ofBytes none data.toList

/-- The value that a file holds, by the extension of its name. -/
def readValue (files : Files) (path : String) : Option (Except Fault Value) :=
  let extension := Text.lower (Path.extension path)
  if extension == ".pkl" || extension == ".pickle" then
    some (do ofArchive (← files.read path))
  else if extension == ".json" then
    some (do
      let text ← files.readText path
      (Json.read text).mapError (Fault.ofJson text))
  else none

/-- The recorder with the history of a saved value. -/
def withHistory (saved : Value) (recorder : Recorder) : Except Fault Recorder := do
  let items ← (← saved.getOr "history" (.list [])).parts
  pure { recorder with history := bounded recorder.limit items.toArray }

def withCompressed (saved : Value) (recorder : Recorder) : Except Fault Recorder := do
  pure { recorder with compressed := ← saved.getOr "compressed" (.list []) }

/-- The count of records is that of the history unless the saved value has one. -/
def withTotal (saved : Value) (recorder : Recorder) : Except Fault Recorder := do
  let statistics ← saved.getOr "statistics" (.dict [])
  pure { recorder with
    total := ← statistics.getOr "total_records" (.int recorder.history.size) }

/-- The first and last cycle of the history. -/
def withCycles (recorder : Recorder) : Except Fault Recorder := do
  let cycles ← recorder.column "cycle"
  pure { recorder with
    firstCycle := cycles.head?.getD .null
    lastCycle := cycles.getLast?.getD .null }

/-- The names of the registers of the history. -/
def withNames (recorder : Recorder) : Except Fault Recorder := do
  let names ← recorder.history.toList.foldlM
    (fun known state => do
      let registers ← (← state.getOr "registers" (.dict [])).entriesOf
      pure (addNames known (Entries.names registers)))
    []
  pure { recorder with registers := names }

/-- The recorder after a saved value is taken over, part by part. -/
def takeOver (recorder : Recorder) (saved : Value) : Recorder × Except Fault Unit :=
  recorder.through
    [withHistory saved, withCompressed saved, withTotal saved, withCycles, withNames]

/-- What comes of loading. -/
structure Loaded where
  recorder : Recorder
  result : Except Fault Bool
  notes : List Note

/-- Problems of files and of their contents are only noted. -/
def isNoted : Fault → Bool
  | .file _ _ => true
  | .unfit _ => true
  | .brokenArchive _ => true
  | _ => false

/-- Loads the history of a file. -/
def load (recorder : Recorder) (files : Files) (path : Value) : Loaded :=
  match path with
  | .text name =>
      match readValue files name with
      | none => ⟨recorder, .ok false, [.unknownExtension (Path.extension name)]⟩
      | some (.error fault) =>
          if isNoted fault then ⟨recorder, .ok false, [.loadFailed fault]⟩
          else ⟨recorder, .error fault, []⟩
      | some (.ok saved) =>
          match recorder.takeOver saved with
          | (taken, .ok ()) => ⟨taken, .ok true, [.loaded name]⟩
          | (taken, .error fault) => ⟨taken, .error fault, []⟩
  | other => ⟨recorder, .error (.notPath other.kindName), []⟩

end ChipEight.Recorder
