/-
This file holds the faults that watched functions raise, by their kind and their arguments. Some kinds
take their arguments apart, and arguments that they have no use for are a fault themselves.
-/

import ChipEight.Fault
import ChipEight.Slice
import ChipEight.Value.Lookup
import ChipEight.Value.Text

namespace ChipEight.Fault

def typeFault (text : String) : Fault := .foreign "TypeError" text

def noInteger (value : Value) : Fault :=
  typeFault ("'" ++ value.kindName ++ "' object cannot be interpreted as an integer")

/-! Errors of the system -/

/-- The kinds that stand for errors of the system with certain numbers. -/
def systemKinds : List (Int × String) := [
  (1, "PermissionError"), (2, "FileNotFoundError"), (3, "ProcessLookupError"),
  (4, "InterruptedError"), (10, "ChildProcessError"), (11, "BlockingIOError"),
  (13, "PermissionError"), (17, "FileExistsError"), (20, "NotADirectoryError"),
  (21, "IsADirectoryError"), (32, "BrokenPipeError"), (103, "ConnectionAbortedError"),
  (104, "ConnectionResetError"), (108, "BrokenPipeError"), (110, "TimeoutError"),
  (111, "ConnectionRefusedError"), (114, "BlockingIOError"), (115, "BlockingIOError")]

/-- The kind of all errors of the system. -/
def systemKind : String := "OSError"

def isSystemKind (kind : String) : Bool :=
  kind == systemKind || kind == "ConnectionError" || systemKinds.any fun entry => entry.2 == kind

/-- An error of the system, if nothing is said of its kind, has the kind of its number. -/
def numberedKind (kind : String) (number : Value) : String :=
  if kind == systemKind then
    ((number.whole?).bind fun code => systemKinds.lookup code).getD kind
  else kind

def systemText (number reason : Value) : String :=
  "[Errno " ++ number.shown ++ "] " ++ reason.shown

/-- The paths that an error of the system is about: the third and the fifth argument. -/
def pathsText (path second : Value) : String :=
  match path, second with
  | .null, _ => ""
  | _, .null => ": " ++ path.quoted
  | _, _ => ": " ++ path.quoted ++ " -> " ++ second.quoted

/-- A call that would wait says how much it has done instead of its path. -/
def checkDone (path : Value) : Except Fault Bool :=
  match path, path.whole? with
  | .float _, _ => .error (noInteger path)
  | _, some count => if Slice.isIndex count then .ok true else .error (.unfit .longCount)
  | _, none => .ok false

/-- An error of the system with two to five arguments. -/
def systemFault (kind : String) (number reason path second : Value) : Except Fault Fault := do
  let name := numberedKind kind number
  let isDone ← if name == "BlockingIOError" then checkDone path else pure false
  let paths := if isDone then "" else pathsText path second
  pure (.foreign name (systemText number reason ++ paths))

/-! Errors in sources -/

/-- The last part of a path. -/
def lastName (path : String) : String :=
  ((path.splitOn "/").getLast?).getD path

/-- The place of an error in a source; a line is a number of sixty-four bits. -/
def placeText (path line : Value) : String :=
  let name := match path with
    | .text characters => some (lastName characters)
    | _ => none
  let number := match line with
    | .int count => some (if Slice.isIndex count then toString count else "-1")
    | _ => none
  match name, number with
  | some source, some count => " (" ++ source ++ ", line " ++ count ++ ")"
  | some source, none => " (" ++ source ++ ")"
  | none, some count => " (line " ++ count ++ ")"
  | none, none => ""

/-- The text of an error in a source; its place has four parts or six. -/
def sourceText (arguments : List Value) : Except Fault String :=
  match arguments with
  | [message, place] =>
      match place.parts with
      | .error _ => .error (typeFault ("'" ++ place.kindName ++ "' object is not iterable"))
      | .ok parts =>
          let given := " arguments (" ++ toString parts.length ++ " given)"
          match parts with
          | [path, line, _, _] => .ok (message.shown ++ placeText path line)
          | [path, line, _, _, _, _] => .ok (message.shown ++ placeText path line)
          | [_, _, _, _, _] =>
              .error (typeFault "end_offset must be provided when end_lineno is provided")
          | _ =>
              .error (typeFault (if parts.length < 4 then "function takes at least 4" ++ given
                else "function takes at most 6" ++ given))
  | message :: _ => .ok message.shown
  | [] => .ok Value.null.shown

/-! Errors in texts -/

/-- A text among the arguments. -/
def textArgument (place : Nat) (value : Value) : Except Fault String :=
  match value with
  | .text characters => .ok characters
  | _ =>
      let kind := match value with
        | .null => "None"
        | _ => value.kindName
      .error (typeFault ("argument " ++ toString place ++ " must be str, not " ++ kind))

/-- A number of sixty-four bits among the arguments. -/
def indexArgument (value : Value) : Except Fault Int :=
  match value.whole? with
  | none => .error (noInteger value)
  | some number =>
      if Slice.isIndex number then .ok number
      else .error (.foreign "OverflowError" "Python int too large to convert to C ssize_t")

/-- A character by its number. -/
def codeText (character : Char) : String :=
  let code := Text.Half.code character
  let digits (mark : String) (width : Nat) :=
    "'\x5c" ++ mark ++ (Hex.padded width code).map Char.toLower ++ "'"
  if code ≤ 0xff then digits "x" 2 else if code ≤ 0xffff then digits "u" 4 else digits "U" 8

/-- The characters of a text from one place up to another. -/
def rangeText (text : String) (start stop : Int) : String :=
  match text.toList[start.toNat]? with
  | some character =>
      if 0 ≤ start && stop == start + 1 then
        "character " ++ codeText character ++ " in position " ++ toString start
      else "characters in position " ++ toString start ++ "-" ++ toString (stop - 1)
  | none => "characters in position " ++ toString start ++ "-" ++ toString (stop - 1)

def countText (wanted : Nat) (arguments : List Value) : Fault :=
  typeFault ("function takes exactly " ++ toString wanted ++ " arguments (" ++
    toString arguments.length ++ " given)")

/-- The text of characters that a code does not have. -/
def unencodedText (code text : String) (start stop : Int) (reason : String) : String :=
  "'" ++ code ++ "' codec can't encode " ++ rangeText text start stop ++ ": " ++ reason

/-- The text of a character that a code does not have. -/
def encodeText (arguments : List Value) : Except Fault String :=
  match arguments with
  | [code, text, start, stop, reason] => do
      let name ← textArgument 1 code
      let characters ← textArgument 2 text
      let first ← indexArgument start
      let last ← indexArgument stop
      let why ← textArgument 5 reason
      pure (unencodedText name characters first last why)
  | _ => .error (countText 5 arguments)

/-- A text as it is written to a file, in which no half of a pair can stand alone. -/
def encoded (text : String) : Except Fault String :=
  match Text.Half.alone? text with
  | none => .ok text
  | some (start, stop) =>
      .error (.foreign "UnicodeEncodeError" (unencodedText "utf-8" text start stop "surrogates not allowed"))

/-- The text of a character that has no counterpart. -/
def translateText (arguments : List Value) : Except Fault String :=
  match arguments with
  | [text, start, stop, reason] => do
      let characters ← textArgument 1 text
      let first ← indexArgument start
      let last ← indexArgument stop
      let why ← textArgument 4 reason
      pure ("can't translate " ++ rangeText characters first last ++ ": " ++ why)
  | _ => .error (countText 4 arguments)

/-- No value is a row of bytes, so bytes that stand for no character cannot be told of. -/
def decodeFault (arguments : List Value) : Fault :=
  match arguments with
  | [code, bytes, start, stop, reason] =>
      let checked : Except Fault Unit := do
        let _ ← textArgument 1 code
        let _ ← indexArgument start
        let _ ← indexArgument stop
        let _ ← textArgument 5 reason
      match checked with
      | .error fault => fault
      | .ok () =>
          typeFault ("a bytes-like object is required, not '" ++ bytes.kindName ++ "'")
  | _ => countText 5 arguments

/-! Groups -/

/-- No value is a fault, so a group of faults cannot be made. -/
def groupFault (arguments : List Value) : Fault :=
  let maker := "BaseExceptionGroup.__new__() "
  let unfitting (text : String) : Fault :=
    .foreign "ValueError" text
  let members (items : List Value) : Fault :=
    if items.isEmpty then
      unfitting "second argument (exceptions) must be a non-empty sequence"
    else unfitting "Item 0 of second argument (exceptions) is not an exception"
  match arguments with
  | [.text _, .list items] => members items
  | [.text _, .text characters] => members (characters.toList.map fun _ => Value.null)
  | [.text _, _] => typeFault "second argument (exceptions) must be a sequence"
  | [.null, _] => typeFault (maker ++ "argument 1 must be str, not None")
  | [name, _] => typeFault (maker ++ "argument 1 must be str, not " ++ name.kindName)
  | _ => typeFault (maker ++ "takes exactly 2 arguments (" ++ toString arguments.length ++ " given)")

/-! All kinds -/

/-- Older names of the kind of all errors of the system. -/
def kindNamed (name : String) : String :=
  if name == "IOError" || name == "EnvironmentError" then systemKind else name

/-- Several arguments are shown as a group, a single one alone. The text of a missing key is quoted. -/
def plainText (kind : String) (arguments : List Value) : String :=
  match arguments with
  | [] => ""
  | [argument] => if kind == "KeyError" then argument.quoted else argument.shown
  | _ => "(" ++ ", ".intercalate (arguments.map Value.quoted) ++ ")"

/-- The fault of a function that raises an error of a kind with arguments, or the fault that keeps it
from being made. -/
def raised (name : String) (arguments : List Value) : Except Fault Fault :=
  let kind := kindNamed name
  if isSystemKind kind then
    match arguments with
    | [number, reason] => systemFault kind number reason .null .null
    | [number, reason, path] => systemFault kind number reason path .null
    | [number, reason, path, _] => systemFault kind number reason path .null
    | [number, reason, path, _, second] => systemFault kind number reason path second
    | _ => .ok (.foreign kind (plainText kind arguments))
  else if kind ∈ ["SyntaxError", "IndentationError", "TabError"] then
    (sourceText arguments).map (.foreign kind)
  else if kind == "UnicodeEncodeError" then (encodeText arguments).map (.foreign kind)
  else if kind == "UnicodeTranslateError" then (translateText arguments).map (.foreign kind)
  else if kind == "UnicodeDecodeError" then .error (decodeFault arguments)
  else if kind ∈ ["ExceptionGroup", "BaseExceptionGroup"] then .error (groupFault arguments)
  else .ok (.foreign kind (plainText kind arguments))

end ChipEight.Fault
