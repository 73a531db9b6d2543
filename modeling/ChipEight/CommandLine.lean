/-
This file runs a command line: it reads the options, loads settings and a program, runs the machine and
shows what became of it. A run works on the files below the working directory and leaves text for the
console; the journal writes its lines among that text.
-/

import ChipEight.CommandLine.Options
import ChipEight.Journal
import ChipEight.Memory.Dump
import ChipEight.Plot
import ChipEight.Recorder.Archive
import ChipEight.Settings.File

namespace ChipEight.CommandLine

/-- What a run has done so far. -/
structure Progress where
  files : Files
  journal : Journal := .initial
  incidents : Incidents := .initial
  output : String := ""
  drawings : List Drawing := []

/-- How a run ends: with a status, with a complaint about its words, with help, or by a fault. -/
inductive Ending where
  | status (number : Nat)
  | refused (complaint : Complaint)
  | help
  | fault (cause : Fault)

/-- A part of a run, which may end all of it. What was done before stays done. -/
abbrev Run := ExceptT Ending (StateM Progress)

/-- A run goes on with the value of a result or ends with its fault. -/
def ofResult {A : Type} (result : Except Fault A) : Run A :=
  match result with
  | .ok value => pure value
  | .error fault => throw (.fault fault)

/-! Output -/

/-- Shows text on the console. -/
def write (text : String) : Run Unit :=
  modify fun progress => { progress with output := progress.output ++ text }

/-- Shows a line on the console. -/
def say (line : String) : Run Unit :=
  write (line ++ "\n")

/-- Writes records to the journal. -/
def log (records : List Record) : Run Unit :=
  modify fun progress =>
    let (files, text) := progress.journal.write progress.files records
    { progress with files, output := progress.output ++ text }

/-- A record of the run itself. -/
def own (level : Level) (text : String) : Record :=
  ⟨level, Incident.rootLogger, text⟩

def tell (report : Report) : Run Unit := do
  let handled := (← get).incidents.handle report
  modify fun progress => { progress with incidents := handled.incidents }
  log handled.records

/-- Complaints of the machine are incidents of the run. -/
def deliver (notices : List Notice) : Run Unit := do
  let (incidents, records) := Notice.deliver (some (← get).incidents) notices
  modify fun progress => { progress with incidents := incidents.getD progress.incidents }
  log records

/-- A run goes on with the session and the result of an action. -/
def perform {A : Type} (turnout : Session.Turnout A) : Run (A × Session) := do
  deliver turnout.notices
  pure (← ofResult turnout.result, turnout.session)

/-- A run goes on with the files after an action. -/
def keep (files : Files) : Run Unit :=
  modify fun progress => { progress with files }

/-! Settings -/

/-- The text of an option, unless it is empty. -/
def given (answer : Answer String) : Option String :=
  answer.value?.filter fun text => !text.isEmpty

/-- The settings after one is set, if there is a value for it. -/
def setIf (settings : Settings) (name : String) : Option Value → Run Settings
  | none => pure settings
  | some value => do
      log [(Settings.Note.updated name value).record]
      pure (settings.set name value)

/-- The settings with those of a file. -/
def loadSettings (settings : Settings) (path : String) : Run Settings := do
  let loaded := settings.loadFile (← get).files path
  log (loaded.notes.map Settings.Note.record)
  if ← ofResult loaded.result then pure loaded.settings
  else do
    tell ⟨none, some (.text ("Could not load configuration: " ++ path)), .error, .configuration,
      .null⟩
    throw (.status 1)

/-- The settings of a run: those of a file and over them those of the options. -/
def settingsOf (options : Options) : Run Settings := do
  let made := Settings.make (← get).files .null
  log (made.notes.map Settings.Note.record)
  let loaded ← match given options.config with
    | none => pure made.settings
    | some path => loadSettings made.settings path
  let seeded ← setIf loaded "seed" (options.seed.toValue? .int)
  let filed ← setIf seeded "logging.file" ((given options.logFile).map .text)
  setIf filed "logging.level" (options.logLevel.value?.map fun level => .text level.name)

/-- Sets the journal up as the settings ask for. -/
def openJournal (options : Options) (settings : Settings) : Run Unit := do
  let named := Level.threshold (settings.get "logging.level" (.text Level.info.name))
  let level ← if options.debug then pure Level.debug.number else ofResult named
  let (levelled, _) := (← get).journal.setLevels (.ok level) (some (.ok Level.debug.number))
  let attached := levelled.setConsole (settings.get "logging.console" (.bool true)).isTrue
  modify fun progress => { progress with journal := attached }
  let path := settings.get "logging.file" .null
  if path.isTrue then
    let opened := attached.setFile (← get).files path
    modify fun progress => { progress with journal := opened.journal, files := opened.files }
    ofResult opened.result
    log opened.records

/-! Machine -/

/-- The session of a run, which has the usual display. Settings that no session can have end the run. -/
def makeSession (settings : Settings) : Run Session := do
  let system := settings.get "system" .null
  let overrides ← ofResult settings.systemSettings
  log ((Session.makeNotices Display.usualPixels system overrides).map Notice.record)
  match Session.make Display.usualPixels system overrides with
  | .ok session => pure session
  | .error fault =>
      if fault.isUnfit then
        tell ⟨some (fault, .raised), some (.text ("Error creating system: " ++ fault.text)),
          .error, .configuration, .null⟩
        throw (.status 1)
      else throw (.fault fault)

/-- The path of the program as the words give it. -/
def programPath (options : Options) : Value :=
  (options.rom.toValue? .text).getD .null

/-- The beginning of the names of plots, if there are any. -/
def plotStart (options : Options) (settings : Settings) : Except Fault (Option String) :=
  if options.plot != .absent || !(settings.get "output.plot" .null).isTrue then
    .ok (given options.plot)
  else
    match programPath options with
    | .text path =>
        let directory := (settings.get "output.directory" (.text ".")).shown
        .ok (given (.value (Path.join directory (Path.stem path))))
    | _ => .error .wrongKind

/-- The session with a recorder, if anything asks for one. -/
def withRecorder (options : Options) (settings : Settings) (session : Session) : Run Session := do
  let start ← ofResult (plotStart options settings)
  if (given options.saveState).isSome || start.isSome ||
      (settings.get "recording.enabled" .null).isTrue then
    let recorder ← ofResult (Recorder.make (settings.get "recording.max_history" .null)
      (settings.get "recording.compression_ratio" .null) .null)
    log [recorder.readyNote.record]
    pure { session with recorder := some recorder }
  else pure session

/-- The session with the program of a file. -/
def loadProgram (session : Session) (path : Value) : Run Session := do
  let progress ← get
  let loaded := session.loadGuarded progress.incidents progress.files path
  modify fun now => { now with incidents := loaded.incidents }
  log loaded.records
  if loaded.result then pure loaded.session
  else do
    log [own .error ("Could not load ROM: " ++ path.shown)]
    throw (.status 1)

/-- The session while keys are held down. -/
def holdKeys (session : Session) (names : Answer String) : Run Session := do
  if names == .blank then throw (.fault .noMember)
  let (keys, notices) := session.resolveKeys (names.value?.getD "")
  deliver notices
  (← ofResult keys).foldlM
    (fun current key => do
      let code := key.whole?.getD (-1)
      deliver ((Keypad.pressNotes code).map fun note => .machine (.keypad note))
      pure (current.press code))
    session

/-- The session after as many cycles or frames as the options ask for. -/
def spend (options : Options) (session : Session) : Run Session :=
  match options.cycles, options.frames with
  | .value count, _ => do
      let (_, after) ← perform (session.start.runCycles count.toNat)
      pure after.stop
  | .blank, _ => throw (.fault .wrongKind)
  | .absent, .blank => throw (.fault .wrongKind)
  | .absent, frames => do
      let count := (frames.value?.getD 1).toNat
      let (halted, after) ← perform (session.start.runFrames 1 count)
      if let some number := halted then
        log [own .info ("Machine halted during frame " ++ toString number)]
      pure after.stop

/-! Results -/

def ruler : String := String.ofList (List.replicate 80 '=')

def sayTitle (options : Options) (settings : Settings) : Run Unit := do
  say ruler
  say "  CHIP-8 Emulator"
  say ("  ROM: " ++ (programPath options).shown)
  say ("  Seed: " ++ (← ofResult (settings.get "seed" .null).show?))
  say ruler

def sayState (session : Session) : Run Unit := do
  let machine := session.machine
  say "\nCPU State:"
  say machine.details
  say session.summary
  say ("Healthy: " ++ Machine.truthWord machine.isHealthy ++ " | Tone: " ++
    Machine.truthWord machine.tone)

def sayDumps (options : Options) (settings : Settings) (session : Session) : Run Unit := do
  if options.dumpDisplay || (settings.get "output.dump_display" .null).isTrue then
    say "\nDisplay:"
    say (session.machine.display.render "#" ".")
  if let some range := options.dumpMemory.value? then
    say ""
    write (session.machine.memory.dump range.start range.length)

/-- Saves the recorded states where the options ask for it. -/
def saveStates (options : Options) (settings : Settings) (session : Session) : Run Unit := do
  match session.recorder, given options.saveState with
  | some recorder, some path =>
      let usual := settings.get "recording.format" (.text "json")
      let format := (options.output.value?.map Value.text).getD usual
      let saved := recorder.save .usual (← get).files (.text path) format
      keep saved.files
      log (saved.notes.map Recorder.Note.record)
      if !(← ofResult saved.result) then
        log [own .error ("Error saving state to " ++ path)]
  | _, _ => pure ()

def draw (plotted : Plot.Plotted) : Run Unit := do
  modify fun progress => { progress with drawings := progress.drawings ++ plotted.drawings }
  log (plotted.notes.map Plot.Note.record)
  discard (ofResult plotted.result)

/-- Plots the display and the registers where the options or the settings ask for it. -/
def plotAll (options : Options) (settings : Settings) (session : Session) : Run Unit := do
  if let some start := ← ofResult (plotStart options settings) then
    let directory := Path.directory start
    if !directory.isEmpty then
      let made := (← get).files.makeDirectories true directory
      keep made.files
      ofResult made.result
    let pixels := Value.ints (session.machine.display.buffer.map fun byte => byte.toNat)
    let resolution := Session.setting session.settings "resolution" Plot.usualResolution
    draw (Plot.picture true pixels resolution Plot.usualScale (start ++ "_display.png"))
    if let some recorder := session.recorder then
      draw (Plot.curves true recorder .null Plot.usualFigure (start ++ "_registers.png"))

/-- A machine with too many errors makes the run fail. -/
def statusOf (machine : Machine) : Nat :=
  if Machine.haltThreshold ≤ machine.errors then 2 else 0

/-! The run -/

/-- A run with options that were understood. -/
def follow (options : Options) : Run Nat := do
  let settings ← settingsOf options
  openJournal options settings
  let made ← makeSession settings
  let recording ← withRecorder options settings made
  let loaded ← loadProgram recording (programPath options)
  let ready ← holdKeys loaded options.keys
  sayTitle options settings
  let session ← spend options ready
  sayState session
  sayDumps options settings session
  saveStates options settings session
  plotAll options settings session
  say "\nRun Summary:"
  say ("Cycles executed: " ++ toString session.machine.cycles)
  pure (statusOf session.machine)

/-- A run with the words of a command line. -/
def start (arguments : List String) : Run Nat := do
  match Options.ofArguments arguments with
  | .error complaint => throw (.refused complaint)
  | .ok options => if options.help then throw .help else follow options

/-- What a command line does with files: how the run ends, and all that it has done. -/
def run (files : Files) (arguments : List String) : Ending × Progress :=
  match (start arguments).run.run { files } with
  | (.ok number, progress) => (.status number, progress)
  | (.error ending, progress) => (ending, progress)

namespace Ending

def programName : String := "chip8-emulator"

/-- The status that the host is given. -/
def number : Ending → Nat
  | status number => number
  | refused _ => 2
  | help => 0
  | fault _ => 1

/-- The message for the console of errors. -/
def message : Ending → String
  | status _ => ""
  | refused complaint => programName ++ ": error: " ++ complaint.text
  | help => ""
  | fault cause => cause.kind ++ ": " ++ cause.text

end Ending

end ChipEight.CommandLine
