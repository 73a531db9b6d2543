/-
This file holds the causes for which an operation cannot go on, with the kind and the text under
which each is reported.
-/

import ChipEight.Bits
import ChipEight.Json.Reader
import ChipEight.Text.ByteSize
import ChipEight.Text.Quoted
import ChipEight.Text.Utf8
import ChipEight.Yaml.Problem

namespace ChipEight

/-- Why the file system refuses a path. -/
inductive Refusal where
  | absent
  | present
  | notDirectory
  | isDirectory
  | longName
  deriving DecidableEq, Repr

namespace Refusal

def number : Refusal → Nat
  | absent => 2
  | present => 17
  | notDirectory => 20
  | isDirectory => 21
  | longName => 36

def text : Refusal → String
  | absent => "No such file or directory"
  | present => "File exists"
  | notDirectory => "Not a directory"
  | isDirectory => "Is a directory"
  | longName => "File name too long"

def kind : Refusal → String
  | absent => "FileNotFoundError"
  | present => "FileExistsError"
  | notDirectory => "NotADirectoryError"
  | isDirectory => "IsADirectoryError"
  | longName => "OSError"

end Refusal

/-- What is wrong with a value of the right kind. -/
inductive Unfit where
  | nullCharacter
  | byteRange
  | negativeCount
  | negativeDimension
  | largeDimension
  | largeGrid
  | negativeBound
  | negativeSeed
  | unknownSeed
  | notHexNumber (text : String)
  | unknownSystem (name : String)
  | unknownLevel (name : String)
  | notNumber (text : String)
  | notWhole
  | manyDigits (count : Nat)
  | longNumber
  | longCount
  | ragged (sides : List Nat)
  | manySides
  | notRow
  | reshape (size : Nat) (rows columns : Int)
  | unknownDimensions
  | fewParts (count : Nat)
  | manyParts
  | unpaired (position length : Nat)
  | undecodable (problem : Utf8.Problem)
  | json (problem : Json.Problem) (text : String)
  | yaml (problem : Yaml.Problem)
  deriving DecidableEq, Repr

def undecodableText (problem : Utf8.Problem) : String :=
  let code := (Hex.padded 2 problem.first.toNat).map Char.toLower
  let place :=
    if problem.length == 1 then "byte 0x" ++ code ++ " in position " ++ toString problem.position
    else "bytes in position " ++ toString problem.position ++ "-" ++
      toString (problem.position + problem.length - 1)
  "'utf-8' codec can't decode " ++ place ++ ": " ++ problem.defect.text

/-- A side that is left open is not shown if it comes first. -/
def sidesText (rows columns : Int) : String :=
  if rows < 0 then toString columns
  else toString rows ++ "," ++ (if columns < 0 then "newaxis" else toString columns)

/-- Sides of a grid between brackets; a single one is followed by a comma. -/
def gridText (sides : List Nat) : String :=
  match sides with
  | [side] => "(" ++ toString side ++ ",)"
  | _ => "(" ++ ", ".intercalate (sides.map toString) ++ ")"

/-- The start of a quoted text, which is all that a message has room for. -/
def startText (text : String) : String :=
  String.ofList ((Text.quoted text).toList.take 200)

def notNumberText (base : Nat) (text : String) : String :=
  "invalid literal for int() with base " ++ toString base ++ ": " ++ startText text

def digitLimitText (more : String) : String :=
  "Exceeds the limit (" ++ toString Numeral.longestDecimal ++
    " digits) for integer string conversion" ++ more ++
    "; use sys.set_int_max_str_digits() to increase the limit"

def Unfit.text : Unfit → String
  | nullCharacter => "embedded null byte"
  | byteRange => "byte must be in range(0, 256)"
  | negativeCount => "negative count"
  | negativeDimension => "negative dimensions are not allowed"
  | largeDimension => "Maximum allowed dimension exceeded"
  | largeGrid =>
      "array is too big; \x60arr.size * arr.dtype.itemsize\x60 is larger than the maximum possible size."
  | negativeBound => "maxlen must be non-negative"
  | negativeSeed => "expected non-negative integer"
  | unknownSeed => "unrecognized seed string"
  | notHexNumber text => notNumberText 16 text
  | unknownSystem name => "Unknown system type: " ++ name
  | unknownLevel name => "Unknown level: " ++ Text.quoted name
  | notNumber text => notNumberText 10 text
  | notWhole => "cannot convert float NaN to integer"
  | manyDigits count => digitLimitText (": value has " ++ toString count ++ " digits")
  | longNumber => digitLimitText ""
  | longCount => "cannot fit 'int' into an index-sized integer"
  | ragged sides =>
      "setting an array element with a sequence. The requested array has an inhomogeneous shape after " ++
        toString sides.length ++ " dimensions. The detected shape was " ++ gridText sides ++
        " + inhomogeneous part."
  | manySides =>
      "setting an array element with a sequence. The requested array would exceed the maximum number of dimension of 64."
  | notRow => "object too deep for desired array"
  | reshape size rows columns =>
      "cannot reshape array of size " ++ toString size ++ " into shape (" ++
        sidesText rows columns ++ ")"
  | unknownDimensions => "can only specify one unknown dimension"
  | fewParts count => "not enough values to unpack (expected 2, got " ++ toString count ++ ")"
  | manyParts => "too many values to unpack (expected 2)"
  | unpaired position length =>
      "dictionary update sequence element #" ++ toString position ++ " has length " ++
        toString length ++ "; 2 is required"
  | undecodable problem => undecodableText problem
  | json problem text => problem.message text
  | yaml problem => problem.text

/-- A place that a sequence does not have. -/
inductive Gap where
  | beyondIndexes
  | memoryCell
  | listItem
  | listPlace
  | axis (number : Nat)
  deriving DecidableEq, Repr

def Gap.text : Gap → String
  | beyondIndexes => "cannot fit 'int' into an index-sized integer"
  | memoryCell => "bytearray index out of range"
  | listItem => "list index out of range"
  | listPlace => "list assignment index out of range"
  | axis number =>
      "index 0 is out of bounds for axis " ++ toString number ++ " with size 0"

/-- Work that goes one level deeper for each level of its subject, up to a limit. -/
inductive Deep where
  | list
  | mapping
  | node
  | directories
  | page
  | archive
  | graph
  deriving DecidableEq, Repr

def Deep.text : Deep → String
  | list => " while decoding a JSON array from a unicode string"
  | mapping => " while decoding a JSON object from a unicode string"
  | node => " while calling a Python object"
  | directories => ""
  | page => ""
  | archive => " while pickling an object"
  | graph => ""

/-- What needs more room than there is. -/
inductive Bulk where
  | bytes
  | grid (sides : List Nat)
  deriving DecidableEq, Repr

/-- Each place of a grid takes a byte. -/
def Bulk.text : Bulk → String
  | bytes => ""
  | grid sides =>
      "Unable to allocate " ++ Text.ByteSize.text (sides.foldl (fun size side => size * side) 1) ++
        " for an array with shape " ++ gridText sides ++ " and data type bool"

/-- Why an operation cannot go on. -/
inductive Fault where
  | wrongKind
  | notPath (kindName : String)
  | noMember
  | tooLarge
  | unfit (problem : Unfit)
  | gap (place : Gap)
  | zeroDivisor
  | noRoom (bulk : Bulk)
  | deep (work : Deep)
  | changedSize
  | file (refusal : Refusal) (path : String)
  | emptyArchive
  | brokenArchive (text : String)
  | foreign (kind text : String)
  deriving DecidableEq, Repr

namespace Fault

/-- The kind that reports name. -/
def kind : Fault → String
  | wrongKind => "TypeError"
  | notPath _ => "TypeError"
  | noMember => "AttributeError"
  | tooLarge => "OverflowError"
  | unfit (.undecodable _) => "UnicodeDecodeError"
  | unfit (.json _ _) => "JSONDecodeError"
  | unfit (.yaml .shapeless) => "YAMLError"
  | unfit _ => "ValueError"
  | gap _ => "IndexError"
  | zeroDivisor => "ZeroDivisionError"
  | noRoom _ => "MemoryError"
  | deep _ => "RecursionError"
  | changedSize => "RuntimeError"
  | file refusal _ => refusal.kind
  | emptyArchive => "EOFError"
  | brokenArchive _ => "UnpicklingError"
  | foreign kind _ => kind

/-- The text that reports show. Each fault has one here, however long the numbers are that it names. -/
def text : Fault → String
  | wrongKind => "a value of another kind is needed"
  | notPath kindName => "expected str, bytes or os.PathLike object, not " ++ kindName
  | noMember => "the value has no such part"
  | tooLarge => "the number is too large"
  | unfit problem => problem.text
  | gap place => place.text
  | zeroDivisor => "integer modulo by zero"
  | noRoom bulk => bulk.text
  | deep work => "maximum recursion depth exceeded" ++ work.text
  | changedSize => "dictionary changed size during iteration"
  | file refusal path =>
      "[Errno " ++ toString refusal.number ++ "] " ++ refusal.text ++ ": " ++ Text.quoted path
  | emptyArchive => "Ran out of input"
  | brokenArchive text => text
  | foreign _ text => text

/-- The cause for which a text is no JSON. -/
def ofJson (text : String) (problem : Json.Problem) : Fault :=
  match problem.defect with
  | .deepList => deep .list
  | .deepMapping => deep .mapping
  | .manyDigits count => unfit (.manyDigits count)
  | _ => unfit (.json problem text)

/-- The cause for which a text is no YAML. -/
def ofYaml (problem : Yaml.Problem) : Fault :=
  match problem with
  | .manyParts => tooLarge
  | .noCharacter code => if Bits.isSigned 32 code then unfit (.yaml problem) else tooLarge
  | .deep => deep .node
  | .manyDigits count => unfit (.manyDigits count)
  | other => unfit (.yaml other)

/-- Problems of files. -/
def isFile : Fault → Bool
  | file _ _ => true
  | _ => false

/-- Problems of values of the right kind, the contents of files included. -/
def isUnfit : Fault → Bool
  | unfit _ => true
  | _ => false

def isKind : Fault → Bool
  | wrongKind => true
  | notPath _ => true
  | _ => false

/-- Faults that end the host; no boundary stops them. A foreign fault is one of these if it is of such a kind
itself, and not if its kind was made from one. -/
def isExit : Fault → Bool
  | foreign kind _ => kind ∈ ["SystemExit", "KeyboardInterrupt", "GeneratorExit", "BaseException"]
  | _ => false

end Fault

end ChipEight
