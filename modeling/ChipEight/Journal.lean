/-
This file holds the journal: where records of the log are written. There is a console, which may be
detached, and at most one file. The console keeps its level while it is detached.
-/

import ChipEight.Files
import ChipEight.Incidents
import ChipEight.Json.Writer

namespace ChipEight

/-- A level by number or by name. -/
def Level.threshold (value : Value) : Except Fault Int :=
  match value with
  | .text name =>
      let names : List (String × Int) :=
        [("CRITICAL", 50), ("FATAL", 50), ("ERROR", 40), ("WARNING", 30), ("WARN", 30),
          ("INFO", 20), ("DEBUG", 10), ("NOTSET", 0)]
      match names.lookup name with
      | some number => .ok number
      | none => .error (.unfit (.unknownLevel name))
  | other =>
      match other.whole? with
      | some number => .ok number
      | none => .error .wrongKind

/-- A place where records of a level and above are written. -/
inductive Sink where
  | console
  | file (path : String) (level : Int)
  deriving DecidableEq, Repr

def Sink.isFile : Sink → Bool
  | console => false
  | file _ _ => true

/-- The level of the console, the level for files, and the attached sinks in order. -/
structure Journal where
  consoleLevel : Int
  fileLevel : Except Fault Int
  logFile : Option String
  sinks : List Sink

namespace Journal

def initial : Journal := ⟨Level.info.number, .ok Level.debug.number, none, [.console]⟩

def levelOf (journal : Journal) : Sink → Int
  | .console => journal.consoleLevel
  | .file _ level => level

/-- The journal after levels are asked for. Only attached sinks take them, in order, and the first
that has no use for its level stops the others. -/
def setLevels (journal : Journal) (console : Except Fault Int)
    (file : Option (Except Fault Int)) : Journal × Except Fault Unit :=
  let asked := { journal with fileLevel := file.getD journal.fileLevel }
  let take : Journal × Except Fault Unit → Nat × Sink → Journal × Except Fault Unit
    | (current, .error fault), _ => (current, .error fault)
    | (current, .ok ()), (_, .console) =>
        match console with
        | .ok level => ({ current with consoleLevel := level }, .ok ())
        | .error fault => (current, .error fault)
    | (current, .ok ()), (place, .file path _) =>
        match file with
        | none => (current, .ok ())
        | some (.ok level) =>
            ({ current with sinks := current.sinks.set place (.file path level) }, .ok ())
        | some (.error fault) => (current, .error fault)
  (journal.sinks.zipIdx.map fun (sink, place) => (place, sink)).foldl take (asked, .ok ())

/-- The journal with the console attached or detached. -/
def setConsole (journal : Journal) (attached : Bool) : Journal :=
  if attached then
    if journal.sinks.contains .console then journal
    else { journal with sinks := journal.sinks ++ [.console] }
  else { journal with sinks := journal.sinks.filter fun sink => sink != .console }

def fileRecord (path : String) : Record :=
  ⟨.debug, Incident.rootLogger, "Set log file to " ++ path⟩

/-- The journal, the files and the result after a log file is asked for. -/
structure Opened where
  journal : Journal
  files : Files
  result : Except Fault Unit
  records : List Record

/-- The old log file is given up first, whether or not the new one can be opened. -/
def setFile (journal : Journal) (files : Files) (path : Value) : Opened :=
  let closed := { journal with
    logFile := none
    sinks := journal.sinks.filter fun sink => !sink.isFile }
  if !path.isTrue then ⟨closed, files, .ok (), []⟩
  else
    match path with
    | .text name =>
        let named := { closed with logFile := some name }
        let parent := files.makeParent name
        match parent.result with
        | .error fault => ⟨named, parent.files, .error fault, []⟩
        | .ok () =>
            match parent.files.openLog name with
            | .error fault => ⟨named, parent.files, .error fault, []⟩
            | .ok opened =>
                match journal.fileLevel with
                | .error fault => ⟨named, opened, .error fault, []⟩
                | .ok level =>
                    ⟨{ named with sinks := named.sinks ++ [.file name level] }, opened, .ok (),
                      [fileRecord name]⟩
    | other => ⟨closed, files, .error (.notPath other.kindName), []⟩

/-- The lines that a sink shows of records. -/
def text (journal : Journal) (sink : Sink) (records : List Record) : String :=
  let shown := records.filter fun record => journal.levelOf sink ≤ record.level.number
  String.join (shown.map fun record => record.line ++ "\n")

/-- The files and the text of the console after records are written. -/
def write (journal : Journal) (files : Files) (records : List Record) : Files × String :=
  journal.sinks.foldl
    (fun (current, shown) sink =>
      match sink with
      | .console => (current, shown ++ journal.text sink records)
      | .file path _ => (current.addText path (journal.text sink records), shown))
    (files, "")

/-- A journal with levels for the console and for files, and with a log file. What opening it notes is
already written. -/
def make (console file path : Value) : Except Fault (Journal × Files) := do
  let consoleLevel ← Level.threshold console
  let opened := { initial with consoleLevel, fileLevel := Level.threshold file }.setFile {} path
  opened.result
  pure (opened.journal, (opened.journal.write opened.files opened.records).1)

end Journal

namespace Incidents

/-- The report of the kept incidents, for a file. -/
def reportValue (incidents : Incidents) : Value :=
  Value.record [("summary", incidents.summary),
    ("errors", .list (incidents.kept.map Incident.toValue))]

/-- What comes of saving a report. -/
structure Saved where
  files : Files
  result : Except Fault Bool
  records : List Record

/-- Writes the report as far as it goes, in a directory that is made if need be. -/
def writeReport (incidents : Incidents) (files : Files) (path : String) : Files.Made :=
  let directory := Path.directory path
  let parent : Files.Made :=
    if directory.isEmpty then ⟨files, .ok ()⟩ else files.makeDirectories true directory
  parent.andThen fun made =>
    let page := Json.page incidents.reportValue
    match made.write path (.ofText page.text) with
    | .error fault => ⟨made, .error fault⟩
    | .ok written => ⟨written, page.result⟩

/-- What comes of saving a report that fails: problems of files and of kinds are only noted. -/
def saveFailure (files : Files) (fault : Fault) : Saved :=
  if fault.isFile || fault.isKind then
    ⟨files, .ok false,
      [⟨.error, Incident.rootLogger, "Error exporting error report: " ++ fault.text⟩]⟩
  else ⟨files, .error fault, []⟩

/-- Saves the report of the kept incidents. -/
def save (incidents : Incidents) (files : Files) (path : Value) : Saved :=
  match path with
  | .text name =>
      let written := incidents.writeReport files name
      match written.result with
      | .error fault => saveFailure written.files fault
      | .ok () =>
          ⟨written.files, .ok true,
            [⟨.info, Incident.rootLogger, "Exported error report to " ++ name⟩]⟩
  | other => saveFailure files (.notPath other.kindName)

end Incidents

end ChipEight
