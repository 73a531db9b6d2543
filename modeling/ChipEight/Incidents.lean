/-
This file keeps incidents: errors and warnings with a level, a category and a context. The latest are
kept up to a bound. A watcher of a category is told of each of its incidents, and its own failure is
only noted.
-/

import ChipEight.Category
import ChipEight.Fault
import ChipEight.Log
import ChipEight.Value.Arithmetic
import ChipEight.Value.Text

namespace ChipEight

/-- How the fault behind an incident came: it was handed over, or it was raised. -/
inductive Origin where
  | handedOver
  | raised
  deriving DecidableEq, Repr

def Origin.text : Origin → String
  | handedOver => "NoneType: None\n"
  | raised => "raised"

/-- A fault or a warning that was reported, as it is kept. A message is a text, unless somebody gave
another value for one. -/
structure Incident where
  level : Level
  category : Category
  message : Value
  cause : Option (String × Origin)
  context : Value

/-- What is told of an incident: all but its cause may be left out. -/
structure Report where
  fault : Option (Fault × Origin)
  message : Option Value
  level : Level
  category : Category
  context : Value

/-- Somebody who is told of incidents: what is left of one, and the fault with which that ends, if there is one.
Whoever watches leaves incidents as they are, and has no fault that ends the host. -/
structure Watcher where
  name : String
  hear : Incident → Incident × Option Fault
  leaves : ∀ incident, (hear incident).1 = incident
  stays : ∀ incident fault, (hear incident).2 = some fault → fault.isExit = false

/-- A watcher who ends in the same way, whatever is told. -/
def Watcher.steady (name : String) (failure : Option Fault)
    (stays : ∀ fault, failure = some fault → fault.isExit = false) : Watcher :=
  ⟨name, fun incident => (incident, failure), fun _ => rfl, fun _ => stays⟩

namespace Report

/-- A fault that is logged is an error. -/
def exception (fault : Option (Fault × Origin)) (message : Option Value) (category : Category)
    (context : Value) : Report :=
  ⟨fault, message, .error, category, context⟩

def warning (message : Option Value) (category : Category) (context : Value) : Report :=
  ⟨none, message, .warning, category, context⟩

end Report

namespace Incident

/-- An incident without a message has that of its fault. -/
def ofReport (report : Report) : Incident where
  level := report.level
  category := report.category
  message := report.message.getD
    (.text ((report.fault.map fun cause => cause.1.text).getD "Unknown error"))
  cause := report.fault.map fun cause => (cause.1.kind, cause.2)
  context := if report.context.isTrue then report.context else .dict []

/-- The incident as a mapping. -/
def toValue (incident : Incident) : Value :=
  let kind := incident.cause.map fun cause => Value.text cause.1
  let trace := incident.cause.map fun cause => Value.text cause.2.text
  Value.record [
    ("level", .text incident.level.name), ("category", .text incident.category.name),
    ("message", incident.message), ("exception_type", kind.getD .null),
    ("traceback", trace.getD .null), ("context", incident.context)]

def rootLogger : String := "Chip8Emulator"

/-- What the log shows of an incident; where the fault came from only if it is an error. -/
def records (incident : Incident) : List Record :=
  let line : Record :=
    ⟨incident.level, rootLogger, incident.message.shown ++ " (" ++ incident.category.name ++ ")"⟩
  match incident.cause with
  | some (_, origin) =>
      if Level.error.number ≤ incident.level.number then
        [line, ⟨.debug, rootLogger, "Traceback: " ++ origin.text⟩]
      else [line]
  | none => [line]

end Incident

/-- The incidents that are kept, oldest first, and who watches which category. The bound is the value
that somebody gave for it. -/
structure Incidents where
  keeps : Bool
  bound : Value
  kept : List Incident
  watchers : List (Category × Watcher)

namespace Incidents

def empty (keeps : Bool) (bound : Value) : Incidents := ⟨keeps, bound, [], []⟩

def usualBound : Value := .int 100

def initial : Incidents := empty true usualBound

/-- The items from the place `-count` on; a count of zero leaves all of them. -/
def lastOf {A : Type} (items : List A) (count : Int) : List A :=
  if 0 < count then items.drop (items.length - count.toNat)
  else items.drop (-count).toNat

/-- The last items, as many as a number says. -/
def latest {A : Type} (count : Value) (items : List A) : Except Fault (List A) := do
  if ← count.less (.int items.length) then
    match count.whole? with
    | some number => pure (lastOf items number)
    | none => .error .wrongKind
  else pure items

/-- The kept incidents with one more, and without those beyond the bound. All are kept if the bound is
no number of incidents, which is a fault. -/
def add (incidents : Incidents) (incident : Incident) : Incidents × Except Fault Unit :=
  if incidents.keeps then
    let all := incidents.kept ++ [incident]
    match latest incidents.bound all with
    | .ok kept => ({ incidents with kept }, .ok ())
    | .error fault => ({ incidents with kept := all }, .error fault)
  else (incidents, .ok ())

def watcher? (incidents : Incidents) (category : Category) : Option Watcher :=
  incidents.watchers.lookup category

/-- What comes of a report. -/
structure Handled where
  incidents : Incidents
  result : Except Fault Incident
  records : List Record
  told : Option Watcher

/-- What becomes of an incident that nobody or somebody is told of. -/
def heard (incident : Incident) : Option Watcher → Incident × Option Fault
  | none => (incident, none)
  | some watcher => watcher.hear incident

/-- An incident is logged and kept, and then told to the watcher of its category. It is kept as the watcher
leaves it. -/
def handle (incidents : Incidents) (report : Report) : Handled :=
  let incident := Incident.ofReport report
  match incidents.add incident with
  | (grown, .error fault) => ⟨grown, .error fault, incident.records, none⟩
  | (_, .ok ()) =>
      let watcher := incidents.watcher? incident.category
      let (left, failure) := heard incident watcher
      let kept := (incidents.add left).1
      match failure with
      | none => ⟨kept, .ok left, incident.records, watcher⟩
      | some fault =>
          if fault.isExit then ⟨kept, .error fault, incident.records, watcher⟩
          else ⟨kept, .ok left, incident.records ++
            [⟨.error, Incident.rootLogger, "Error in error handler: " ++ fault.text⟩], watcher⟩

def warning (message : String) (category : Category) (context : Value) : Report :=
  .warning (some (.text message)) category context

/-- The latest watcher of a category takes the place of the one before. -/
def watch (incidents : Incidents) (category : Category) (watcher : Watcher) : Incidents :=
  let others := incidents.watchers.filter fun entry => entry.1 != category
  { incidents with watchers := others ++ [(category, watcher)] }

def watchRecord (category : Category) : Record :=
  ⟨.debug, Incident.rootLogger, "Registered handler for " ++ category.name ++ " errors"⟩

def unwatch (incidents : Incidents) (category : Category) : Incidents :=
  { incidents with watchers := incidents.watchers.filter fun entry => entry.1 != category }

def unwatchRecord (category : Category) : Record :=
  ⟨.debug, Incident.rootLogger, "Unregistered handler for " ++ category.name ++ " errors"⟩

/-- Only a watcher who is there is noted when he goes. -/
def unwatchRecords (incidents : Incidents) (category : Category) : List Record :=
  if (incidents.watcher? category).isSome then [unwatchRecord category] else []

def clear (incidents : Incidents) : Incidents := { incidents with kept := [] }

/-- The kept incidents of a level and a category, where they are given. -/
def select (incidents : Incidents) (level : Option Level) (category : Option Category) :
    List Incident :=
  incidents.kept.filter fun incident =>
    (level.isNone || level == some incident.level) &&
      (category.isNone || category == some incident.category)

/-- The last items, as many as a number says, or all of them if no number is given. -/
def atMost {A : Type} (count : Value) (items : List A) : Except Fault (List A) :=
  if count.isTrue then latest count items else .ok items

/-- How often each name occurs, in the order in which the names come. -/
def tally (names : List String) : List (String × Nat) :=
  names.foldl
    (fun counts name =>
      if counts.any fun entry => entry.1 == name then
        counts.map fun entry => if entry.1 == name then (name, entry.2 + 1) else entry
      else counts ++ [(name, 1)])
    []

def byCategory (incidents : Incidents) : List (String × Nat) :=
  tally (incidents.kept.map fun incident => incident.category.name)

def byLevel (incidents : Incidents) : List (String × Nat) :=
  tally (incidents.kept.map fun incident => incident.level.name)

/-- The counts of the kept incidents and the latest of them. -/
def summary (incidents : Incidents) : Value :=
  let counts (entries : List (String × Nat)) : Value :=
    Value.record (entries.map fun entry => (entry.1, .int entry.2))
  Value.record [
    ("total", .int incidents.kept.length), ("by_category", counts incidents.byCategory),
    ("by_level", counts incidents.byLevel),
    ("latest", (incidents.kept.getLast?.map Incident.toValue).getD .null)]

end Incidents

end ChipEight
