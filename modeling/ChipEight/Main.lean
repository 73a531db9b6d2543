/-
This file is the program: it takes the files that a command line names from the disk, runs the command
line, and puts what was made back on the disk and on the consoles.
-/

import ChipEight.CommandLine
import ChipEight.Json.Writer

namespace ChipEight.Main

/-- The bytes that stand for a content on a disk; an archive is a mark and the text of its value. -/
def diskBytes : Content → ByteArray
  | .bytes data => data
  | .archive value => ByteArray.mk #[0x80] ++ (Json.line value).toUTF8

/-- What lies at a path on the disk. -/
def nodeAt? (path : String) : IO (Option Node) := do
  match ← (IO.FS.readBinFile path).toBaseIO with
  | .ok data => pure (some (.file (.bytes data)))
  | .error (.inappropriateType ..) => pure (some .directory)
  | .error _ => pure none

/-- A path and the directories that lead to it, the outermost first. Steps that stay do not count. -/
def placesOf (path : String) : List (List String) :=
  let steps := (Path.steps path).filter fun name => name != "."
  (List.range steps.length).map fun count => steps.take (count + 1)

/-- The files with what the disk has at paths. -/
def takeUp (files : Files) (paths : List String) : IO Files :=
  (paths.flatMap placesOf).foldlM
    (fun current place => do
      match ← nodeAt? ("/".intercalate place) with
      | some node => pure (current.set place node)
      | none => pure current)
    files

/-- The paths that options name. -/
def optionPaths (options : CommandLine.Options) : List String :=
  [options.rom, options.config, options.saveState, options.logFile, options.plot].filterMap
    CommandLine.Answer.value?

/-- The paths that settings name. -/
def settingPaths (settings : Settings) : List String :=
  [settings.get "logging.file" .null, settings.get "output.directory" .null].filterMap fun value =>
    match value with
    | .text path => some path
    | _ => none

/-- The files that a command line may read or add to. -/
def filesFor (arguments : List String) : IO Files := do
  match CommandLine.Options.ofArguments arguments with
  | .error _ => pure {}
  | .ok options =>
      let files ← takeUp {} (optionPaths options)
      let path := (options.config.value?.map Value.text).getD .null
      takeUp files (settingPaths (Settings.make files path).settings)

/-- Puts the nodes that are new or changed on the disk. -/
def putBack (before after : Files) : IO Unit := do
  for (place, node) in after.nodes do
    let path := "/".intercalate place
    match node, before.nodes.lookup place with
    | .directory, none => IO.FS.createDirAll path
    | .directory, some _ => pure ()
    | .file content, some (.file old) =>
        if diskBytes content != diskBytes old then IO.FS.writeBinFile path (diskBytes content)
    | .file content, _ => IO.FS.writeBinFile path (diskBytes content)

end ChipEight.Main

open ChipEight in
def main (arguments : List String) : IO UInt32 := do
  let files ← Main.filesFor arguments
  let (ending, progress) := CommandLine.run files arguments
  Main.putBack files progress.files
  IO.print progress.output
  if !ending.message.isEmpty then IO.eprintln ending.message
  pure (UInt32.ofNat ending.number)
