/-
This file records snapshots. A snapshot is a mapping that may hold a cycle, a counter, an opcode and
registers by name, but nothing is taken for granted. The latest snapshots are held up to a limit, and
one of several is kept for good.
-/

import ChipEight.Log
import ChipEight.Value.Arithmetic
import ChipEight.Value.Lookup
import ChipEight.Value.Text

namespace ChipEight

/-- A history of snapshots. `limit` bounds the history and `limitGiven` is the setting it comes from;
`compressed` holds every snapshot whose number is a multiple of the ratio, whatever the limit, and
`registers` the names of all registers seen so far, each once and in the order of their appearance. -/
structure Recorder where
  limit : Option Nat
  limitGiven : Value
  ratio : Value
  filter : Value
  history : Array Value
  compressed : Value
  total : Value
  firstCycle : Value
  lastCycle : Value
  registers : List Key

namespace Recorder

inductive Note where
  | ready (limit ratio : Value)
  | exactMissing (cycle nearest : Value)
  | saved (path : String) (format : Value)
  | unknownFormat (format : Value)
  | saveFailed (fault : Fault)
  | loaded (path : String)
  | unknownExtension (extension : String)
  | loadFailed (fault : Fault)

namespace Note

def level : Note → Level
  | ready _ _ => .debug
  | exactMissing _ _ => .debug
  | saved _ _ => .info
  | unknownFormat _ => .error
  | saveFailed _ => .error
  | loaded _ => .info
  | unknownExtension _ => .error
  | loadFailed _ => .error

def text : Note → String
  | ready limit ratio =>
      "Initialized state recorder with max history " ++ limit.shown ++ ", compression ratio 1:" ++
        ratio.shown
  | exactMissing cycle nearest =>
      "Exact cycle " ++ cycle.shown ++ " not found, returning nearest cycle " ++ nearest.shown
  | saved path format => "Saved state history to " ++ path ++ " in " ++ format.shown ++ " format"
  | unknownFormat format => "Unsupported format: " ++ format.shown
  | saveFailed fault => "Error saving history: " ++ fault.text
  | loaded path => "Loaded state history from " ++ path
  | unknownExtension extension => "Unsupported file format: " ++ extension
  | loadFailed fault => "Error loading history: " ++ fault.text

def record (note : Note) : Record :=
  ⟨note.level, "Chip8Emulator.StateRecorder", note.text⟩

end Note

/-- The formats in which a history is saved. -/
def formatNames : List String := ["json", "csv", "pickle"]

def usualLimit : Nat := 100000

def usualRatio : Nat := 10

/-- No limit lies beyond these. -/
def limitOf (given : Value) : Except Fault (Option Nat) :=
  match given with
  | .null => .ok none
  | other =>
      match other.whole? with
      | none => .error .wrongKind
      | some count =>
          if !Slice.isIndex count then .error .tooLarge
          else if count < 0 then .error (.unfit .negativeBound)
          else .ok (some count.toNat)

/-- A recorder without snapshots. Ratios below one act as one. -/
def make (limit ratio filter : Value) : Except Fault Recorder := do
  let effective ← (Value.int 1).greater ratio
  let bound ← limitOf limit
  pure ⟨bound, limit, effective, filter, #[], .list [], .int 0, .null, .null, []⟩

def readyNote (recorder : Recorder) : Note := .ready recorder.limitGiven recorder.ratio

def clear (recorder : Recorder) : Recorder :=
  { recorder with
    history := #[]
    compressed := .list []
    total := .int 0
    firstCycle := .null
    lastCycle := .null
    registers := [] }

/-- The entries whose names the filter holds. -/
def chosen (filter : Value) : Entries → Except Fault Entries
  | [] => .ok []
  | (name, value) :: rest => do
      let wanted ← filter.contains name.toValue
      let others ← chosen filter rest
      pure (if wanted then (name, value) :: others else others)

/-- A snapshot with only those of its registers that the filter holds. -/
def filtered (filter state : Value) : Except Fault Value :=
  match filter with
  | .null => .ok state
  | _ => do
      if ← state.contains (.text "registers") then
        let entries ← state.copied
        let registers ← (Value.dict entries).item (.text "registers")
        let kept ← chosen filter (← registers.entriesOf)
        pure (.dict (Entries.put entries (.text "registers") (.dict kept)))
      else pure state

/-- The cycle of the first snapshot that has one, and of the last. -/
def withCycle (recorder : Recorder) (state : Value) : Except Fault Recorder := do
  if ← state.contains (.text "cycle") then
    let cycle ← state.item (.text "cycle")
    let first := match recorder.firstCycle with
      | .null => cycle
      | known => known
    pure { recorder with firstCycle := first, lastCycle := cycle }
  else pure recorder

/-- Names that are not yet known come last. -/
def addNames (known : List Key) (names : List Key) : List Key :=
  names.foldl
    (fun all name => if all.any fun other => other.same name then all else all ++ [name]) known

/-- The names of all registers that were recorded. -/
def withRegisters (recorder : Recorder) (state : Value) : Except Fault Recorder := do
  if ← state.contains (.text "registers") then
    let registers ← (← state.item (.text "registers")).entriesOf
    pure { recorder with registers := addNames recorder.registers (Entries.names registers) }
  else pure recorder

/-- The latest items up to a limit. -/
def bounded (limit : Option Nat) (items : Array Value) : Array Value :=
  match limit with
  | none => items
  | some count => if count < items.size then items.extract (items.size - count) items.size else items

/-- The snapshot comes last in the history, and the oldest one gives way. -/
def withSnapshot (recorder : Recorder) (state : Value) : Recorder :=
  { recorder with history := bounded recorder.limit (recorder.history.push state) }

/-- Each snapshot whose number is a multiple of the ratio is kept for good. -/
def withSample (recorder : Recorder) (state : Value) : Except Fault Recorder := do
  if ← recorder.total.isMultiple recorder.ratio then
    match recorder.compressed with
    | .list items => pure { recorder with compressed := .list (items ++ [state]) }
    | _ => .error .noMember
  else pure recorder

/-- One step after another; the first that fails ends them and keeps what was done before. -/
def through (recorder : Recorder) :
    List (Recorder → Except Fault Recorder) → Recorder × Except Fault Unit
  | [] => (recorder, .ok ())
  | step :: rest =>
      match step recorder with
      | .ok next => through next rest
      | .error fault => (recorder, .error fault)

/-- The recorder after all is noted of a snapshot but the snapshot itself. -/
def noted (recorder : Recorder) (state : Value) : Recorder × Except Fault Unit :=
  recorder.through [
    fun current => current.total.successor.map fun total => { current with total := total },
    fun current => current.withCycle state,
    fun current => current.withRegisters state]

/-- The recorder after a snapshot. A snapshot that is no mapping may be refused halfway. -/
def record (recorder : Recorder) (state : Value) : Recorder × Except Fault Unit :=
  match filtered recorder.filter state with
  | .error fault => (recorder, .error fault)
  | .ok kept =>
      match recorder.noted kept with
      | (halfway, .error fault) => (halfway, .error fault)
      | (ready, .ok ()) => (ready.withSnapshot kept).through [fun current => current.withSample kept]

/-- The recorder after snapshots one after another, up to the first that is refused. -/
def recordAll (recorder : Recorder) : List Value → Recorder × Except Fault Unit
  | [] => (recorder, .ok ())
  | state :: rest =>
      match recorder.record state with
      | (next, .ok ()) => recordAll next rest
      | refused => refused

end Recorder

end ChipEight
