/-
This file answers questions about the snapshots that a recorder holds.
-/

import ChipEight.Recorder
import ChipEight.Value.Grid

namespace ChipEight.Recorder

/-- A slice of the history. -/
def slice (recorder : Recorder) (start stop : Value) : Except Fault (List Value) := do
  let first ← start.sliceEnd
  let last ← stop.sliceEnd
  pure (Slice.ofList recorder.history.toList first last)

/-- The snapshots that hold a name, with the values under it. -/
def holding (name : String) : List Value → Except Fault (List (Value × Value))
  | [] => .ok []
  | state :: rest => do
      if ← state.contains (.text name) then
        let value ← state.item (.text name)
        pure ((state, value) :: (← holding name rest))
      else holding name rest

/-- The values under a name in all snapshots that hold it. -/
def column (recorder : Recorder) (name : String) : Except Fault (List Value) := do
  pure ((← holding name recorder.history.toList).map Prod.snd)

/-- A snapshot with its cycle and how far that is from another. -/
structure Candidate where
  state : Value
  cycle : Value
  away : Value

/-- Of two candidates the nearer one, and the first unless the second is nearer. -/
def nearer (cycle : Value) (best : Option Candidate) (entry : Value × Value) :
    Except Fault (Option Candidate) := do
  let candidate : Candidate := ⟨entry.1, entry.2, ← entry.2.distance cycle⟩
  match best with
  | none => pure (some candidate)
  | some known => pure (some (if ← candidate.away.less known.away then candidate else known))

/-- The snapshot whose cycle is nearest; the first of several. -/
def nearestOf (cycle : Value) (entries : List (Value × Value)) : Except Fault (Option Candidate) :=
  entries.foldlM (nearer cycle) none

/-- The snapshot of a cycle or the nearest one, and a note if it is not exact. -/
def byCycle (recorder : Recorder) (cycle : Value) : Except Fault (Value × List Note) := do
  match ← nearestOf cycle (← holding "cycle" recorder.history.toList) with
  | none => pure (.null, [])
  | some best =>
      pure (best.state, if best.cycle.same cycle then [] else [.exactMissing cycle best.cycle])

/-- The value of a register in a snapshot that holds it. -/
def registerIn (state name : Value) : Except Fault (Option Value) := do
  if ← state.contains (.text "registers") then
    let registers ← state.item (.text "registers")
    if ← registers.contains name then pure (some (← registers.item name)) else pure none
  else pure none

/-- The cycles and values of a register after so many others. A snapshot without a cycle has its place
for one. -/
def historyFrom (name : Value) (count : Nat) : List Value → Except Fault (List (Value × Value))
  | [] => .ok []
  | state :: rest => do
      match ← registerIn state name with
      | none => historyFrom name count rest
      | some value =>
          let cycle ← state.getOr "cycle" (.int count)
          pure ((cycle, value) :: (← historyFrom name (count + 1) rest))

/-- The cycles and values of a register. -/
def registerHistory (recorder : Recorder) (name : Value) : Except Fault (List (Value × Value)) :=
  historyFrom name 0 recorder.history.toList

/-- A snapshot that changes a register, with the value before and after. -/
structure Change where
  cycle : Value
  counter : Value
  old : Value
  new : Value

def Change.toValue (change : Change) : Value :=
  Value.record [("cycle", change.cycle), ("pc", change.counter), ("old_value", change.old),
    ("new_value", change.new)]

/-- A cycle lies before the start that is given. -/
def isBefore (cycle start : Value) : Except Fault Bool :=
  match start, cycle with
  | .null, _ => .ok false
  | _, .null => .ok false
  | _, _ => cycle.less start

/-- A cycle lies after the end that is given. -/
def isAfter (cycle stop : Value) : Except Fault Bool :=
  match stop, cycle with
  | .null, _ => .ok false
  | _, .null => .ok false
  | _, _ => stop.less cycle

/-- The changes from the last value on. Snapshots before the start only set the value, and the first
one after the end closes the list. -/
def changesFrom (name start stop : Value) (last : Value) :
    List Value → Except Fault (List Change)
  | [] => .ok []
  | state :: rest => do
      match ← registerIn state name with
      | none => changesFrom name start stop last rest
      | some value =>
          let cycle ← state.getOr "cycle" .null
          if ← isBefore cycle start then changesFrom name start stop value rest
          else if ← isAfter cycle stop then pure []
          else
            let later := changesFrom name start stop value rest
            match last with
            | .null => later
            | old =>
                if value.same old then later
                else
                  let counter ← state.getOr "pc" .null
                  pure (⟨cycle, counter, old, value⟩ :: (← later))

/-- All changes of a register in a window of cycles. -/
def changes (recorder : Recorder) (name start stop : Value) : Except Fault (List Change) :=
  changesFrom name start stop .null recorder.history.toList

/-- The opcodes of all snapshots as words in a row. -/
def opcodes (recorder : Recorder) : Except Fault (List Nat) := do
  let grid ← Grid.ofValue (.list (← recorder.column "opcode"))
  let words ← grid.words 16
  if grid.sides.length ≤ 1 then pure words else .error (.unfit .notRow)

/-- How many opcodes of each family there are, families without any left out. -/
def histogram (recorder : Recorder) : Except Fault (List (Nat × Nat)) := do
  let families := (← recorder.opcodes).map fun word => word / 0x1000
  pure ((List.range 16).filterMap fun family =>
    let count := families.count family
    if count == 0 then none else some (family, count))

/-- Texts in the order of the numbers of their characters. -/
def sortedTexts (names : List String) : List String :=
  names.mergeSort fun first second => first ≤ second

/-- The names of all registers in order. Names are texts, or they have no order. -/
def sortedRegisters (recorder : Recorder) : Except Fault (List String) := do
  let names ← recorder.registers.mapM fun key =>
    match key with
    | .text name => Except.ok name
    | _ => .error Fault.wrongKind
  pure (sortedTexts names)

/-- The count of cycles from the first to the last. It is also needed as a number with a binary point. -/
def totalCycles (recorder : Recorder) : Except Fault Value :=
  match recorder.firstCycle, recorder.lastCycle with
  | .null, _ => .ok (.int 0)
  | _, .null => .ok (.int 0)
  | first, last => do
      let total ← last.minus first
      let _ ← total.toDouble
      pure total

/-- The counts that a recorder keeps. -/
def statistics (recorder : Recorder) : Except Fault Value := do
  let cycles ← recorder.totalCycles
  let samples ← recorder.compressed.length
  let names ← recorder.sortedRegisters
  pure (Value.record [
    ("total_records", recorder.total), ("total_cycles", cycles),
    ("current_history_size", .int recorder.history.size),
    ("max_history_size", recorder.limitGiven), ("compression_ratio", recorder.ratio),
    ("compressed_history_size", .int samples), ("unique_registers", .texts names)])

end ChipEight.Recorder
