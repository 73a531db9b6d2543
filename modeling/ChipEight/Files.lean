/-
This file holds the files below the working directory, and the reasons for which reading, writing
and making directories are refused. Nothing else of the host is known, so names that start at its root lead to
nothing.
-/

import ChipEight.Fault
import ChipEight.Files.Path
import ChipEight.Value

namespace ChipEight

/-- What a file holds: bytes, or a value in the binary form of an archive. -/
inductive Content where
  | bytes (data : ByteArray)
  | archive (value : Value)

inductive Node where
  | directory
  | file (content : Content)

/-- The nodes below the working directory, each under the names that lead to it. -/
structure Files where
  nodes : List (List String × Node) := []

namespace Content

def ofText (text : String) : Content := .bytes text.toUTF8

end Content

namespace Files

/-- The working directory and those above it are always there. -/
def node? (files : Files) (place : List String) : Option Node :=
  if place.all fun name => name == ".." then some .directory else files.nodes.lookup place

/-- The new node takes the place of the old one. -/
def set (files : Files) (place : List String) (node : Node) : Files :=
  ⟨files.nodes.filter (fun entry => entry.1 != place) ++ [(place, node)]⟩

/-- The place above another one. Above the working directory, places are counted by two points. -/
def above (place : List String) : List String :=
  if place.all fun name => name == ".." then place ++ [".."] else place.dropLast

/-- One step from a place that must be a directory. A point stays there. -/
def step (files : Files) (place : List String) (name : String) : Except Refusal (List String) :=
  match files.node? place with
  | none => .error .absent
  | some (.file _) => .error .notDirectory
  | some .directory =>
      if name == "." then .ok place
      else if name == ".." then .ok (above place)
      else if 255 < name.utf8ByteSize then .error .longName
      else .ok (place ++ [name])

/-- Paths of this many bytes are too long. -/
def pathLimit : Nat := 4096

/-- The place that a path leads to; only its last name may be new. -/
def locate (files : Files) (path : String) : Except Refusal (List String) :=
  if path.isEmpty || path.startsWith "/" then .error .absent
  else if pathLimit ≤ path.utf8ByteSize then .error .longName
  else (Path.steps path).foldlM (fun place name => files.step place name) []

/-- What a path leads to, if there is anything. -/
def find? (files : Files) (path : String) : Option Node :=
  match files.locate path with
  | .error _ => none
  | .ok place =>
      match files.node? place with
      | some (.file content) => if Path.asksDirectory path then none else some (.file content)
      | found => found

def exists? (files : Files) (path : String) : Bool :=
  (files.find? path).isSome

def isDirectory (files : Files) (path : String) : Bool :=
  match files.find? path with
  | some .directory => true
  | _ => false

/-- No path may hold the character zero. -/
def guarded {A : Type} (path : String) (action : Except Refusal A) : Except Fault A :=
  if path.contains '\x00' then .error (.unfit .nullCharacter)
  else action.mapError fun refusal => .file refusal path

/-- What the file at a path holds. -/
def read (files : Files) (path : String) : Except Fault Content :=
  guarded path do
    let place ← files.locate path
    match files.node? place with
    | none => .error .absent
    | some .directory => .error .isDirectory
    | some (.file content) =>
        if Path.asksDirectory path then .error .notDirectory else .ok content

/-- The place of a path that may be written, and what is there now. A slash at its end makes it a
directory, whatever is there. -/
def writable (files : Files) (path : String) : Except Refusal (List String × Option Content) := do
  let place ← files.locate path
  if Path.asksDirectory path then .error .isDirectory
  else
    match files.node? place with
    | some .directory => .error .isDirectory
    | some (.file content) => .ok (place, some content)
    | none => .ok (place, none)

/-- The files after a file is made or its content replaced. -/
def write (files : Files) (path : String) (content : Content) : Except Fault Files :=
  guarded path do
    let (place, _) ← files.writable path
    pure (files.set place (.file content))

/-- The files after one directory is made. -/
def makeDirectory (files : Files) (path : String) : Except Fault Files :=
  guarded path do
    let place ← files.locate path
    match files.node? place with
    | some _ => .error .present
    | none => .ok (files.set place .directory)

/-- The files after directories are made, and how that ended; those made before a fault are there. -/
structure Made where
  files : Files
  result : Except Fault Unit

/-- An action on the files that were made, unless making them failed. -/
def Made.andThen (made : Made) (next : Files → Made) : Made :=
  match made.result with
  | .ok () => next made.files
  | .error _ => made

/-- The files after the last of the directories of a path is made. With `mayExist`, a directory that
is already there is no problem. -/
def makeLast (mayExist : Bool) (path : String) (files : Files) : Made :=
  match files.makeDirectory path with
  | .ok made => ⟨made, .ok ()⟩
  | .error fault =>
      if mayExist && fault.isFile && files.isDirectory path then ⟨files, .ok ()⟩
      else ⟨files, .error fault⟩

/-- The directories of a path are made one inside the other, if they are no more than this, on a host whose calls
may be a thousand deep and a few of them taken. -/
def deepestDirectory : Nat := 990

/-- The files after all directories of a path are made, those before the last first. A path that
ends with a point asks for nothing more than those. -/
def makeDirectoriesIn (mayExist : Bool) : Nat → Files → String → Made
  | 0, files, _ => ⟨files, .error (.deep .directories)⟩
  | fuel + 1, files, path =>
      let whole := if (Path.name path).isEmpty then Path.directory path else path
      let head := Path.directory whole
      let last := Path.name whole
      if !head.isEmpty && !last.isEmpty && !files.exists? head then
        let before := makeDirectoriesIn mayExist fuel files head
        let ready : Made := match before.result with
          | .error (.file .present _) => ⟨before.files, .ok ()⟩
          | _ => before
        if last == "." then ready else ready.andThen (makeLast mayExist path)
      else makeLast mayExist path files

def makeDirectories (files : Files) (mayExist : Bool) (path : String) : Made :=
  makeDirectoriesIn mayExist deepestDirectory files path

/-- The files after the directory of a path is made, unless it is there. -/
def makeParent (files : Files) (path : String) : Made :=
  let directory := Path.directory path
  if directory.isEmpty || files.exists? directory then ⟨files, .ok ()⟩
  else files.makeDirectories false directory

/-- Characters with one end for every line: a return before a new line is left out, and a return alone
becomes a new line. -/
def unifiedLines : List Char → List Char
  | [] => []
  | '\r' :: '\n' :: rest => '\n' :: unifiedLines rest
  | '\r' :: rest => '\n' :: unifiedLines rest
  | character :: rest => character :: unifiedLines rest

/-- The text of a file. Every kind of line end counts as one; archives are no text. -/
def textOf (content : Content) : Except Fault String :=
  match content with
  | .archive _ => .error (.unfit (.undecodable ⟨0, 1, 0x80, .start⟩))
  | .bytes data =>
      match Utf8.decode data.toList with
      | .error problem => .error (.unfit (.undecodable problem))
      | .ok text => .ok (String.ofList (unifiedLines text.toList))

def readText (files : Files) (path : String) : Except Fault String := do
  textOf (← files.read path)

/-- The bytes of a file, archives apart. -/
def readBytes (files : Files) (path : String) : Except Fault (List UInt8) := do
  match ← files.read path with
  | .bytes data => pure data.toList
  | .archive _ => pure [0x80, 0x04]

/-- The path from the root; the working directory has a name of its own. -/
def absolute (path : String) : String :=
  "/".intercalate ("<cwd>" :: Path.settled path)

/-- The files after a file is opened for lines to be added, which makes it if need be. -/
def openLog (files : Files) (path : String) : Except Fault Files :=
  let relative := "/".intercalate (Path.settled path)
  let opened : Except Refusal Files :=
    if relative.isEmpty then .error .isDirectory
    else do
      let (place, present) ← files.writable relative
      pure (if present.isSome then files else files.set place (.file (.bytes ByteArray.empty)))
  (guarded path opened).mapError fun fault =>
    match fault with
    | .file refusal _ => .file refusal (absolute path)
    | other => other

/-- The files after text is added to a log. -/
def addText (files : Files) (path text : String) : Files :=
  let place := Path.settled path
  match files.node? place with
  | some (.file (.bytes data)) => files.set place (.file (.bytes (data ++ text.toUTF8)))
  | _ => files

/-- The paths of all files below the working directory. -/
def paths (files : Files) : List String :=
  files.nodes.filterMap fun entry =>
    match entry.2 with
    | .file _ => if entry.1.head? == some ".." then none else some ("/".intercalate entry.1)
    | .directory => none

end Files

end ChipEight
