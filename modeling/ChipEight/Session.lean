/-
This file holds a session: a machine with its settings, which the host starts and stops and runs by
cycles or by frames, and whose state may be recorded after each cycle.
-/

import ChipEight.Files
import ChipEight.Incidents.Boundary
import ChipEight.Machine.Cycle
import ChipEight.Machine.Report
import ChipEight.RandomBytes.Seed
import ChipEight.Recorder
import ChipEight.Text.Blank
import ChipEight.Text.LowerCase

namespace ChipEight

/-- What happens in a session, in order. -/
inductive Notice where
  | machine (event : Event)
  | recorder (note : Recorder.Note)
  | plainExtension (extension : String)
  | loading (path : String)
  | unknownKey (name : String)

namespace Notice

def level : Notice → Level
  | machine event => event.level
  | recorder note => note.level
  | plainExtension _ => .warning
  | loading _ => .info
  | unknownKey _ => .warning

def record : Notice → Record
  | machine event => event.record
  | recorder note => note.record
  | plainExtension extension =>
      ⟨.warning, "Chip8Emulator.System",
        "Unrecognized ROM extension '" ++ extension ++ "', loading anyway"⟩
  | loading path => ⟨.info, "Chip8Emulator.System", "Loading ROM: " ++ path⟩
  | unknownKey name => ⟨.warning, Incident.rootLogger, "Unknown key '" ++ name ++ "' ignored"⟩

/-- The report that is made of a complaint of the machine. -/
def complaintReport (cause : Complaint) (position : Position) : Report :=
  Incidents.warning cause.text cause.category
    (Value.record [("pc", .int position.counter), ("instruction", .int position.instruction),
      ("cycle", .int position.cycle)])

/-- Complaints go to the incidents of the host if it keeps any; the rest is only logged. -/
def deliver (incidents : Option Incidents) : List Notice → Option Incidents × List Record
  | [] => (incidents, [])
  | notice :: rest =>
      match incidents, notice with
      | some kept, .machine (.complaint cause position) =>
          let handled := kept.handle (complaintReport cause position)
          let (last, records) := deliver (some handled.incidents) rest
          (last, handled.records ++ records)
      | _, _ =>
          let (last, records) := deliver incidents rest
          (last, notice.record :: records)

end Notice

/-- A machine with what surrounds it: the settings it was made from, the cycles of a frame, the keys of
the host, and a recorder if the settings ask for one. Settings may give cycles and keys of any kind;
they are values until they are used. -/
structure Session where
  settings : Entries
  machine : Machine
  cyclesPerFrame : Value
  keymap : Value
  started : Bool
  frames : Nat
  recorder : Option Recorder

namespace Session

/-- The keys of the host and the keys of the keypad that they stand for. -/
def usualKeymap : Value :=
  Value.record ([("1", 0x1), ("2", 0x2), ("3", 0x3), ("4", 0xc), ("q", 0x4), ("w", 0x5),
    ("e", 0x6), ("r", 0xd), ("a", 0x7), ("s", 0x8), ("d", 0x9), ("f", 0xe), ("z", 0xa),
    ("x", 0x0), ("c", 0xb), ("v", 0xf)].map fun (name, code) => (name, Value.int code))

def zoneValue (start stop : Int) (more : List (String × Value)) : Value :=
  Value.record ([("start", .int start), ("end", .int stop)] ++ more)

def registerNames : List String :=
  (List.finRange 16).map Machine.registerName ++ ["I", "PC", "SP", "DT", "ST"]

def usualCyclesPerFrame : Nat := 10

/-- The name of the one system there is. -/
def systemName : String := "chip8"

/-- The settings of the system. -/
def usualSettings : Value :=
  Value.record [
    ("cpu_type", .text systemName), ("memory_size", .int Memory.size),
    ("memory_map", Value.record [
      ("system", zoneValue 0 (Memory.glyphStart - 1) []),
      ("fontset", zoneValue Memory.glyphStart (Memory.glyphEnd - 1)
        [("write_protected", .bool true)]),
      ("free", zoneValue Memory.glyphEnd (Memory.programStart - 1) []),
      ("program", zoneValue Memory.programStart (Memory.size - 1) [])]),
    ("registers", .texts registerNames),
    ("resolution", .ints [Display.usualWidth, Display.usualHeight]),
    ("stack_size", .int Machine.stackSize), ("cycles_per_frame", .int usualCyclesPerFrame),
    ("seed", .int Machine.usualSeed), ("keymap", usualKeymap)]

/-- What an action of a session gives. -/
structure Turnout (A : Type) where
  session : Session
  result : Except Fault A
  notices : List Notice

/-- An action after another, unless that one fails. -/
def Turnout.andThen {A B : Type} (first : Turnout A) (next : Session → A → Turnout B) : Turnout B :=
  match first.result with
  | .error fault => ⟨first.session, .error fault, first.notices⟩
  | .ok value =>
      let second := next first.session value
      ⟨second.session, second.result, first.notices ++ second.notices⟩

/-- The display of a resolution, whose sides may be left out. -/
def displayOf (room : Nat) (resolution : Value) : Except Fault Display := do
  let usualHeight := Value.int Display.usualHeight
  match ← resolution.parts with
  | [] => Display.ofSides room (.int Display.usualWidth) usualHeight
  | [width] => Display.ofSides room width usualHeight
  | [width, height] => Display.ofSides room width height
  | _ => .error .wrongKind

/-- A setting, or the value that stands for it where it is missing. -/
def setting (settings : Entries) (name : String) (missing : Value) : Value :=
  (Entries.find? settings (.text name)).getD missing

/-- The settings after others are laid over those of a system. -/
def settingsOf (system overrides : Value) : Except Fault Entries := do
  match system.toKey? with
  | none => .error .wrongKind
  | some key =>
      if key.same (.text systemName) then
        pure (Entries.putAll (usualSettings.entries?.getD []) (overrides.entries?.getD []))
      else .error (.unfit (.unknownSystem system.shown))

/-- A session of a system, on a host with room for so many pixels. -/
def make (room : Nat) (system overrides : Value) : Except Fault Session := do
  let settings ← settingsOf system overrides
  let display ← displayOf room (setting settings "resolution"
    (.ints [Display.usualWidth, Display.usualHeight]))
  let random ← RandomBytes.ofValue (setting settings "seed" (.int Machine.usualSeed))
  pure {
    settings
    machine := .new display random
    cyclesPerFrame := setting settings "cycles_per_frame" (.int usualCyclesPerFrame)
    keymap := setting settings "keymap" usualKeymap
    started := false
    frames := 0
    recorder := none }

/-- What happens while a session is made, or until making it fails. -/
def makeNotices (room : Nat) (system overrides : Value) : List Notice :=
  match settingsOf system overrides, make room system overrides with
  | .error _, _ => []
  | .ok _, .error _ => [.machine (.memory .ready)]
  | .ok _, .ok _ => Machine.newEvents.map .machine

def start (session : Session) : Session := { session with started := true }

def stop (session : Session) : Session := { session with started := false }

def reset (session : Session) : Session :=
  { session with machine := session.machine.reset, started := false, frames := 0 }

def isRunning (session : Session) : Bool :=
  session.started && session.machine.isRunning

def press (session : Session) (code : Int) : Session :=
  { session with machine := session.machine.press code }

def release (session : Session) (code : Int) : Session :=
  { session with machine := session.machine.release code }

/-- A program that is refused changes nothing. -/
def load (session : Session) (program : Option (List UInt8)) : Turnout Bool :=
  let loaded := session.machine.load program
  let frames := if loaded.result then 0 else session.frames
  ⟨{ session with machine := loaded.machine, frames := frames }, .ok loaded.result,
    loaded.events.map .machine⟩

/-- The extensions of program files. -/
def programExtensions : List String := [".ch8", ".c8", ".rom", ".bin"]

/-- Loads the program of a file, whatever its extension. `read` gives the bytes of the file of a name. -/
def loadFrom (session : Session) (read : String → Except Fault (List UInt8)) (path : Value) :
    Turnout Bool :=
  match path with
  | .text name =>
      let extension := Path.extension name
      let warning :=
        if programExtensions.contains (Text.lower extension) then []
        else [Notice.plainExtension extension]
      match read name with
      | .error fault => ⟨session, .error fault, warning⟩
      | .ok bytes =>
          let loaded := session.load (some bytes)
          ⟨loaded.session, loaded.result, warning ++ .loading name :: loaded.notices⟩
  | other => ⟨session, .error (.notPath other.kindName), []⟩

/-- No program is loaded where reading the file fails. -/
def loadBoundary : Boundary Bool := ⟨.input, false⟩

def loadSite : Site := ⟨"load_rom", "chip8_emulator.systems.chip8.chip8_system"⟩

/-- What comes of loading a file behind a boundary. -/
structure GuardedLoad where
  session : Session
  incidents : Incidents
  result : Bool
  records : List Record

/-- A file that cannot be read is an incident and leaves the session as it was. -/
def loadGuardedFrom (session : Session) (incidents : Incidents)
    (read : String → Except Fault (List UInt8)) (path : Value) : GuardedLoad :=
  let turnout := session.loadFrom read path
  let passage := loadBoundary.pass loadSite incidents turnout.result
  ⟨turnout.session, passage.incidents, passage.result.toOption.getD false,
    turnout.notices.map Notice.record ++ passage.records⟩

/-- Loads the program of one of some files behind the boundary. -/
def loadGuarded (session : Session) (incidents : Incidents) (files : Files) (path : Value) :
    GuardedLoad :=
  session.loadGuardedFrom incidents files.readBytes path

/-- The snapshot of the machine that is recorded. -/
def snapshot (machine : Machine) : Value :=
  Value.record [("cycle", .int machine.cycles), ("pc", .int machine.counter),
    ("opcode", .int machine.last), ("registers", Value.record machine.namedRegisters)]

/-- The session after its state is recorded, if it is recorded at all. The recorder is out of the
session meanwhile, so that its history can grow in place. -/
def recorded (session : Session) : Session × Except Fault Unit :=
  match session.recorder with
  | none => (session, .ok ())
  | some recorder =>
      let free := { session with recorder := none }
      let (written, result) := recorder.record (snapshot free.machine)
      ({ free with recorder := some written }, result)

/-- A cycle of the machine and a record of the state after it. -/
def advance (session : Session) : Turnout Unit :=
  let outcome := session.machine.cycle
  let after := { session with machine := outcome.machine }
  let notices := outcome.events.map Notice.machine
  match outcome.result with
  | .error fault => ⟨after, .error fault, notices⟩
  | .ok () =>
      let (written, result) := after.recorded
      ⟨written, result, notices⟩

/-- Only a session that is started runs cycles one by one. -/
def cycle (session : Session) : Turnout Unit :=
  if session.started then session.advance else ⟨session, .ok (), []⟩

/-- Cycles of a frame, as long as the machine is not halted. -/
def advanceMany (session : Session) : Nat → Turnout Unit
  | 0 => ⟨session, .ok (), []⟩
  | count + 1 =>
      if session.machine.halted then ⟨session, .ok (), []⟩
      else session.advance.andThen fun next _ => next.advanceMany count

/-- A frame runs its cycles whether or not the session is started. -/
def runFrame (session : Session) : Turnout Unit :=
  match session.cyclesPerFrame.whole? with
  | none => ⟨session, .error .wrongKind, []⟩
  | some count =>
      (session.advanceMany count.toNat).andThen fun ran _ =>
        ⟨{ ran with frames := ran.frames + 1 }, .ok (), []⟩

/-- Cycles one by one, until the machine is halted. -/
def runCycles (session : Session) : Nat → Turnout Unit
  | 0 => ⟨session, .ok (), []⟩
  | count + 1 =>
      if session.machine.halted then ⟨session, .ok (), []⟩
      else session.cycle.andThen fun next _ => next.runCycles count

/-- Frames from the one with a number on, until the machine is halted; the result is the number of
the frame in which that happens. -/
def runFrames (session : Session) (number : Nat) : Nat → Turnout (Option Nat)
  | 0 => ⟨session, .ok none, []⟩
  | count + 1 =>
      session.runFrame.andThen fun next _ =>
        if next.machine.halted then ⟨next, .ok (some number), []⟩
        else next.runFrames (number + 1) count

/-- Whether the display has changed since the last call, and the session after the call. -/
def consumeRedraw (session : Session) : Bool × Session :=
  (session.machine.redraw,
    { session with machine := { session.machine with redraw := false } })

/-- The key that a name as browsers write it stands for. -/
def plainKeyName (name : String) : String :=
  if name.startsWith "Key" && name.length == 4 then String.ofList (name.toList.drop 3)
  else if name.startsWith "Digit" && name.length == 6 then String.ofList (name.toList.drop 5)
  else name

/-- The key of the keypad that a name stands for, or nothing. -/
def keyNamed (session : Session) (name : String) : Except Fault Value :=
  session.keymap.getOr (Text.lower (plainKeyName name)) .null

/-- A single digit of base sixteen stands for its key. -/
def digitKey? (name : String) : Option Value :=
  match name.toList with
  | [character] => (Hex.digitValue? character).map fun value => .int value
  | _ => none

/-- The keys that names between commas stand for; unknown names are passed over. -/
def resolveNames (session : Session) : List String → Except Fault (List Value) × List Notice
  | [] => (.ok [], [])
  | name :: rest =>
      match session.keyNamed name with
      | .error fault => (.error fault, [])
      | .ok found =>
          let key? := match found with
            | .null => digitKey? name
            | key => some key
          let (others, notices) := resolveNames session rest
          match key? with
          | some key => (others.map fun keys => key :: keys, notices)
          | none => (others, .unknownKey name :: notices)

/-- The keys that a text of names between commas stands for; blanks around names do not count. -/
def resolveKeys (session : Session) (text : String) : Except Fault (List Value) × List Notice :=
  session.resolveNames (((text.splitOn ",").map Text.strip).filter fun name => !name.isEmpty)

/-- The state of a session and of the parts of its machine. -/
def state (session : Session) : List (String × Value) :=
  let machine := session.machine
  [("cycle_count", .int machine.cycles), ("frame_count", .int session.frames),
    ("running", .bool session.isRunning), ("healthy", .bool machine.isHealthy),
    ("tone", .bool machine.tone), ("redraw", .bool machine.redraw),
    ("cpu_state", machine.state), ("display_state", machine.display.state),
    ("keypad_state", machine.keypad.state), ("memory_state", machine.memory.state)]

def summary (session : Session) : String :=
  session.machine.summary ++ " | " ++ session.machine.memory.summary

end Session

end ChipEight
