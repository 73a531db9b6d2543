/-
This file takes the names of files apart: directories before slashes, and an extension after the
last point of a name.
-/

namespace ChipEight.Path

/-- The characters up to the last slash and the characters after it. -/
def cut (path : String) : List Char × List Char :=
  let name := (path.toList.reverse.takeWhile fun character => character != '/').reverse
  (path.toList.take (path.length - name.length), name)

/-- The directory part without slashes at its end, unless it has nothing else. -/
def trimmedHead (head : List Char) : List Char :=
  let kept := (head.reverse.dropWhile fun character => character == '/').reverse
  if kept.isEmpty then head else kept

/-- The directory that a path names before its last part. -/
def directory (path : String) : String :=
  String.ofList (trimmedHead (cut path).1)

/-- The last part of a path. -/
def name (path : String) : String :=
  String.ofList (cut path).2

/-- The last part of a path before and from its last point; points at its start do not count. -/
def pointed (path : String) : List Char × List Char :=
  let whole := (cut path).2
  let ending := (whole.reverse.takeWhile fun character => character != '.').reverse
  let stem := whole.take (whole.length - ending.length - 1)
  if ending.length < whole.length && stem.any fun character => character != '.' then
    (stem, '.' :: ending)
  else (whole, [])

def extension (path : String) : String :=
  String.ofList (pointed path).2

/-- The last part of a path without its extension. -/
def stem (path : String) : String :=
  String.ofList (pointed path).1

/-- A path below a directory, unless it starts at the root. -/
def join (first second : String) : String :=
  if second.startsWith "/" then second
  else if first.isEmpty || first.endsWith "/" then first ++ second
  else first ++ "/" ++ second

/-- The names between slashes; an empty name stands for no step. -/
def steps (path : String) : List String :=
  (path.splitOn "/").filter fun part => !part.isEmpty

/-- A path that ends with a slash can only be a directory. -/
def asksDirectory (path : String) : Bool :=
  path.endsWith "/"

/-- The steps of a path after those that stay and those to the parent have been taken; steps above its
start remain. -/
def settled (path : String) : List String :=
  ((steps path).foldl
    (fun taken part =>
      if part == "." then taken
      else
        match taken with
        | [] => [part]
        | last :: others => if part == ".." && last != ".." then others else part :: taken)
    []).reverse

end ChipEight.Path
