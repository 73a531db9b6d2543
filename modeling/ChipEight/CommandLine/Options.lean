/-
This file reads the words of a command line: what each option asks for, and what is wrong with words
that cannot be understood. An option may be shortened as long as only one begins like it, and its value
may follow an equals sign or be the next word.
-/

import ChipEight.Recorder
import ChipEight.Text.Numeral

namespace ChipEight.CommandLine

inductive Switch where
  | help
  | rom
  | frames
  | cycles
  | config
  | seed
  | keys
  | dumpDisplay
  | dumpMemory
  | saveState
  | output
  | plot
  | logFile
  | debug
  | logLevel
  deriving DecidableEq, Repr

namespace Switch

def name : Switch → String
  | help => "--help"
  | rom => "--rom"
  | frames => "--frames"
  | cycles => "--cycles"
  | config => "--config"
  | seed => "--seed"
  | keys => "--keys"
  | dumpDisplay => "--dump-display"
  | dumpMemory => "--dump-memory"
  | saveState => "--save-state"
  | output => "--output"
  | plot => "--plot"
  | logFile => "--log-file"
  | debug => "--debug"
  | logLevel => "--log-level"

/-- The name in messages; help has a short form too. -/
def label : Switch → String
  | help => "-h/--help"
  | switch => switch.name

def takesValue : Switch → Bool
  | help => false
  | dumpDisplay => false
  | debug => false
  | _ => true

def all : List Switch := [
  help, rom, frames, cycles, config, seed, keys, dumpDisplay, dumpMemory, saveState, output, plot,
  logFile, debug, logLevel]

end Switch

/-- The levels that may be asked for. -/
def levels : List Level := [.debug, .info, .warning, .error]

/-- What is wrong with the words. -/
inductive Complaint where
  | ambiguous (word : String) (matching : List Switch)
  | missingValue (switch : Switch)
  | needlessValue (switch : Switch) (value : String)
  | noNumber (switch : Switch) (value : String)
  | noRange (value : String)
  | noChoice (switch : Switch) (value : String) (choices : List String)
  | missingRom
  | unknown (words : List String)
  deriving DecidableEq, Repr

/-- What a text that is no range is told. -/
def rangeText (value : String) : String :=
  "Invalid memory range '" ++ value ++ "', expected START:LENGTH"

namespace Complaint

def about (switch : Switch) (text : String) : String :=
  "argument " ++ switch.label ++ ": " ++ text

def text : Complaint → String
  | ambiguous word matching =>
      "ambiguous option: " ++ word ++ " could match " ++
        ", ".intercalate (matching.map Switch.name)
  | missingValue switch => about switch "expected one argument"
  | needlessValue switch value => about switch ("ignored explicit argument " ++ Text.quoted value)
  | noNumber switch value => about switch ("invalid int value: " ++ Text.quoted value)
  | noRange value => about .dumpMemory (rangeText value)
  | noChoice switch value choices =>
      about switch ("invalid choice: " ++ Text.quoted value ++ " (choose from " ++
        ", ".intercalate (choices.map Text.quoted) ++ ")")
  | missingRom => "the following arguments are required: " ++ Switch.rom.name
  | unknown words => "unrecognized arguments: " ++ " ".intercalate words

end Complaint

/-! Words -/

/-- What a word stands for before any option takes its value. -/
inductive Word where
  | plain
  | separator
  | unknown
  | shortHelp (rest : String)
  | switch (name : Switch) (value : Option String)
  deriving DecidableEq, Repr

/-- A word before and after its first equals sign. -/
def cut (word : String) : String × Option String :=
  let name := word.toList.takeWhile fun character => character != '='
  match word.toList.drop name.length with
  | [] => (word, none)
  | _ :: value => (String.ofList name, some (String.ofList value))

/-- A sign and digits, with at most one point that digits follow. -/
def isNegativeNumber (word : String) : Bool :=
  let isDigit (character : Char) : Bool := (Text.digitValue? character).isSome
  match word.toList with
  | '-' :: digits =>
      let kept := if digits.getLast? == some '\n' then digits.dropLast else digits
      let rest := kept.dropWhile isDigit
      match rest with
      | [] => !kept.isEmpty
      | '.' :: fraction => !fraction.isEmpty && fraction.all isDigit
      | _ => false
  | _ => false

/-- A word that begins with two dashes and names one option or begins like it. -/
def longWord (word : String) : Except Complaint Word :=
  let (name, value) := cut word
  match Switch.all.find? fun switch => switch.name == name with
  | some switch => .ok (.switch switch value)
  | none =>
      match Switch.all.filter fun switch => switch.name.startsWith name with
      | [] => .ok (if word.contains ' ' then .plain else .unknown)
      | [switch] => .ok (.switch switch value)
      | matching => .error (.ambiguous word matching)

/-- The only short option is the one that asks for help. -/
def shortWord (word : String) : Word :=
  match word.toList with
  | '-' :: 'h' :: rest => .shortHelp (String.ofList rest)
  | _ => if isNegativeNumber word || word.contains ' ' then .plain else .unknown

/-- The word after which no word is an option. -/
def separator : String := "--"

def wordOf (word : String) : Except Complaint Word :=
  if word == separator then .ok .separator
  else if word.startsWith "--" then longWord word
  else if word.startsWith "-" && word != "-" then .ok (shortWord word)
  else .ok .plain

/-- The words with what they stand for. All words after a separator are plain. -/
def wordsOf : List String → Except Complaint (List (String × Word))
  | [] => .ok []
  | word :: rest => do
      match ← wordOf word with
      | .separator =>
          pure ((word, .separator) :: rest.map fun later => (later, .plain))
      | known => pure ((word, known) :: (← wordsOf rest))

/-! Options -/

/-- The start and the length of a part of the memory. -/
structure MemoryRange where
  start : Int
  length : Int
  deriving DecidableEq, Repr

/-- Two numbers around a colon. -/
def MemoryRange.read? (text : String) : Option MemoryRange :=
  let start := text.toList.takeWhile fun character => character != ':'
  match text.toList.drop start.length with
  | [] => none
  | _ :: length =>
      match Numeral.literal (String.ofList start), Numeral.literal (String.ofList length) with
      | .ok first, .ok count => some ⟨first, count⟩
      | _, _ => none

/-- What the words give for an option: nothing, a value, or after the equals sign the separator, which
leaves the option blank. -/
inductive Answer (A : Type) where
  | absent
  | blank
  | value (given : A)
  deriving DecidableEq, Repr

namespace Answer

def value? {A : Type} : Answer A → Option A
  | value given => some given
  | _ => none

/-- A blank answer counts as an empty list. -/
def toValue? {A : Type} (ofGiven : A → Value) : Answer A → Option Value
  | absent => none
  | blank => some (.list [])
  | value given => some (ofGiven given)

end Answer

/-- What the words of a command line ask for. -/
structure Options where
  help : Bool := false
  rom : Answer String := .absent
  frames : Answer Int := .absent
  cycles : Answer Int := .absent
  config : Answer String := .absent
  seed : Answer Int := .absent
  keys : Answer String := .absent
  dumpDisplay : Bool := false
  dumpMemory : Answer MemoryRange := .absent
  saveState : Answer String := .absent
  output : Answer String := .absent
  plot : Answer String := .absent
  logFile : Answer String := .absent
  debug : Bool := false
  logLevel : Answer Level := .absent
  deriving DecidableEq, Repr

namespace Options

def number (switch : Switch) (text : String) : Except Complaint Int :=
  (Numeral.decimal text).mapError fun _ => .noNumber switch text

/-- The options after one that needs no value. -/
def turnOn (options : Options) : Switch → Options
  | .help => { options with help := true }
  | .dumpDisplay => { options with dumpDisplay := true }
  | .debug => { options with debug := true }
  | _ => options

/-- The options after one with its value; the last value of several counts. -/
def take (options : Options) (switch : Switch) (text : String) : Except Complaint Options :=
  match switch with
  | .rom => .ok { options with rom := .value text }
  | .frames => do pure { options with frames := .value (← number switch text) }
  | .cycles => do pure { options with cycles := .value (← number switch text) }
  | .config => .ok { options with config := .value text }
  | .seed => do pure { options with seed := .value (← number switch text) }
  | .keys => .ok { options with keys := .value text }
  | .dumpMemory =>
      match MemoryRange.read? text with
      | some range => .ok { options with dumpMemory := .value range }
      | none => .error (.noRange text)
  | .saveState => .ok { options with saveState := .value text }
  | .output =>
      if Recorder.formatNames.contains text then .ok { options with output := .value text }
      else .error (.noChoice switch text Recorder.formatNames)
  | .plot => .ok { options with plot := .value text }
  | .logFile => .ok { options with logFile := .value text }
  | .logLevel =>
      match levels.find? fun level => level.name == text with
      | some level => .ok { options with logLevel := .value level }
      | none => .error (.noChoice switch text (levels.map Level.name))
  | other => .error (.needlessValue other text)

/-- The options after one that takes a value and is left blank. -/
def leaveBlank (options : Options) : Switch → Options
  | .rom => { options with rom := .blank }
  | .frames => { options with frames := .blank }
  | .cycles => { options with cycles := .blank }
  | .config => { options with config := .blank }
  | .seed => { options with seed := .blank }
  | .keys => { options with keys := .blank }
  | .dumpMemory => { options with dumpMemory := .blank }
  | .saveState => { options with saveState := .blank }
  | .output => { options with output := .blank }
  | .plot => { options with plot := .blank }
  | .logFile => { options with logFile := .blank }
  | .logLevel => { options with logLevel := .blank }
  | _ => options

/-- The options after one and what follows its equals sign. -/
def takeJoined (options : Options) (switch : Switch) (text : String) : Except Complaint Options :=
  if switch.takesValue && text == separator then .ok (options.leaveBlank switch)
  else options.take switch text

/-- The short form of help may come again in its word, but takes no value. -/
def repeatedHelpProblem? : List Char → Option Complaint
  | [] => none
  | 'h' :: rest => repeatedHelpProblem? rest
  | value => some (.needlessValue .help (String.ofList value))

/-- What is wrong with what follows the short form of help in its word. After an equals sign there
has to be something. -/
def shortHelpProblem? : List Char → Option Complaint
  | ['='] => some (.needlessValue .help "")
  | '=' :: value => repeatedHelpProblem? value
  | rest => repeatedHelpProblem? rest

/-- The options of words from the first on, and the words that no option takes. A call for help ends
the reading. -/
def ofWords (options : Options) : List (String × Word) → Except Complaint (Options × List String)
  | [] => .ok (options, [])
  | (_, .shortHelp more) :: _ =>
      match shortHelpProblem? more.toList with
      | some complaint => .error complaint
      | none => .ok (options.turnOn .help, [])
  | (_, .switch name (some value)) :: rest => do
      ofWords (← options.takeJoined name value) rest
  | (_, .switch .help none) :: _ => .ok (options.turnOn .help, [])
  | (_, .switch name none) :: rest =>
      if name.takesValue then
        match rest with
        | (value, .plain) :: others => do ofWords (← options.take name value) others
        | _ => .error (.missingValue name)
      else ofWords (options.turnOn name) rest
  | (word, _) :: rest => do
      let (last, left) ← ofWords options rest
      pure (last, word :: left)

/-- The options of a command line. There has to be a program to run, and no word may be left. -/
def ofArguments (arguments : List String) : Except Complaint Options := do
  let (options, left) ← ofWords {} (← wordsOf arguments)
  if options.help then pure options
  else if options.rom == .absent then .error .missingRom
  else if !left.isEmpty then .error (.unknown left)
  else pure options

end Options

end ChipEight.CommandLine
