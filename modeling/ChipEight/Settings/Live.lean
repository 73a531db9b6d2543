/-
This file holds settings as they are while they are used: mappings in a store, which the caller may hold too.
What is set or loaded is put in place as it is given, without a copy, so a mapping may come to stand under
several names.
-/

import ChipEight.Settings.File

namespace ChipEight.Settings

/-- The mapping of all settings in a store, and the names of those that were touched. -/
structure Live where
  store : Store
  root : Nat
  modified : List Key

namespace Live

/-- A mapping of its own with the first settings, in a store that may hold more. -/
def fresh (store : Store) : Live :=
  let (grown, cell) := store.bring (.ofValue (.dict defaults))
  ⟨grown, (grown.mapping? cell).getD 0, []⟩

def initial : Live := fresh .empty

/-- The settings as they are now. -/
def shown (live : Live) : Settings :=
  ⟨((live.store.look (.object live.root)).entries?).getD [], live.modified⟩

/-- A value of the caller comes into the store. -/
def bring (live : Live) (document : Document) : Live × Cell :=
  let (grown, cell) := live.store.bring document
  ({ live with store := grown }, cell)

/-! Dotted names -/

/-- What stands under a name, as it is. -/
def get? (live : Live) (name : String) : Option Cell :=
  live.store.walk (.object live.root) ((parts name).map .text)

def get (live : Live) (name : String) (missing : Cell) : Cell :=
  (live.get? name).getD missing

/-- The mapping that stands under a key of another one. -/
def below? (store : Store) (site : Nat) (key : Key) : Option Nat :=
  (store.find? site key).bind store.mapping?

/-- The store with a cell at the end of a path from a mapping; what stands in its way gives way to new
mappings. -/
def putAlong (store : Store) (site : Nat) (cell : Cell) : List String → Store
  | [] => store
  | [last] => store.put site (.text last) cell
  | part :: rest =>
      match below? store site (.text part) with
      | some inner => putAlong store inner cell rest
      | none =>
          let inner := store.newSite
          putAlong ((store.add (.mapping [])).put site (.text part) (.object inner)) inner cell rest

def set (live : Live) (name : String) (cell : Cell) : Live :=
  { live with
    store := putAlong live.store live.root cell (parts name)
    modified := note live.modified (.text name) }

/-- All settings are as at first. -/
def resetAll (live : Live) : Live := fresh live.store

/-- The setting or the section of a name is as at first; names without a default change nothing. -/
def reset (live : Live) (name : String) : Live :=
  match Settings.find? (.dict defaults) (parts name) with
  | none => live
  | some value =>
      let (grown, cell) := live.bring (.ofValue value)
      let changed := grown.set name cell
      { changed with modified := changed.modified.filter fun other => !other.same (.text name) }

/-! Merging -/

/-- What comes of merging a mapping into settings; the entries before a fault are merged. -/
structure Merged where
  live : Live
  result : Except Fault Unit

/-- A mapping over a mapping is merged into it by `inner`; any other value takes the place of the old one,
which touches it. -/
def mergeEntry (inner : Key → Nat → Nat → Live → Merged) (path key : Key) (cell : Cell) (target : Nat)
    (live : Live) : Merged :=
  match below path key with
  | .error fault => ⟨live, .error fault⟩
  | .ok name =>
      match live.store.mapping? cell, below? live.store target key with
      | some source, some old => inner name source old live
      | _, _ =>
          ⟨{ live with store := live.store.put target key cell, modified := note live.modified name }, .ok ()⟩

/-- The last so many entries of a mapping, which must not grow while they are merged. -/
def mergeLast (inner : Key → Nat → Nat → Live → Merged) (path : Key) (source target size : Nat) (live : Live) :
    Nat → Merged
  | 0 => ⟨live, if (live.store.entries source).length = size then .ok () else .error .changedSize⟩
  | left + 1 =>
      if (live.store.entries source).length = size then
        match (live.store.entries source)[size - (left + 1)]? with
        | none => ⟨live, .ok ()⟩
        | some (key, cell) =>
            let merged := mergeEntry inner path key cell target live
            match merged.result with
            | .ok () => mergeLast inner path source target size merged.live left
            | .error _ => merged
      else ⟨live, .error .changedSize⟩

/-- Merges the mapping at a site into that at another one, as deep as the host has room. -/
def merge : Nat → Key → Nat → Nat → Live → Merged
  | 0, _, _, _, live => ⟨live, .error (.deep .node)⟩
  | room + 1, path, source, target, live =>
      let size := (live.store.entries source).length
      mergeLast (merge room) path source target size live size

/-! Loading -/

/-- What comes of loading. -/
structure Loaded where
  live : Live
  result : Except Fault Bool
  notes : List Note

/-- A mapping without problems is merged into the settings, as far as that goes. -/
def loadCell (live : Live) (room : Nat) (cell : Cell) : Loaded :=
  match validate (live.store.look cell) with
  | .error fault => ⟨live, .error fault, []⟩
  | .ok [] =>
      let merged := merge room top ((live.store.mapping? cell).getD 0) live.root live
      ⟨merged.live, merged.result.map fun _ => true, []⟩
  | .ok problems => ⟨live, .ok false, problems.map .refused⟩

/-- Loads a document that nobody else holds. -/
def loadDocument (live : Live) (room : Nat) (document : Document) : Loaded :=
  let (grown, cell) := live.bring document
  grown.loadCell room cell

/-- Loads what a path leads to. -/
def load (live : Live) (library : Library) (room : Nat) (files : Files) (path : Value) : Loaded :=
  match fetch library.documentOf files path with
  | .nothing result notes => ⟨live, result, notes⟩
  | .document name document =>
      let loaded := live.loadDocument room document
      match loaded.result with
      | .ok true => { loaded with notes := loaded.notes ++ [.loaded name] }
      | _ => loaded

/-- New settings, with the document of a file if a path is given. -/
def make (library : Library) (room : Nat) (files : Files) (path : Value) : Loaded :=
  let loaded := if path.isTrue then initial.load library room files path else ⟨initial, .ok true, []⟩
  { loaded with notes := loaded.notes ++ (match loaded.result with
    | .ok _ => [.ready]
    | .error _ => []) }

/-! Saving -/

/-- What comes of saving. -/
structure Saved where
  files : Files
  result : Except Fault Bool
  notes : List Note

/-- What comes of saving that fails: only problems of files and of the format are noted. -/
def saveFailure (files : Files) (fault : Fault) : Saved :=
  if fault.isFile || fault.kind == "YAMLError" then ⟨files, .ok false, [.saveFailed fault]⟩
  else ⟨files, .error fault, []⟩

/-- Writes a page as far as it goes. -/
def savePage (files : Files) (path : String) (page : Json.Page) : Saved :=
  match files.write path (.ofText page.text), page.result with
  | .error fault, _ => saveFailure files fault
  | .ok written, .error fault => saveFailure written fault
  | .ok written, .ok () => ⟨written, .ok true, [.saved path]⟩

/-- Saves the settings. The directory is made first, whatever the format. -/
def save (live : Live) (library : Library) (files : Files) (path format : Value) : Saved :=
  match path with
  | .text name =>
      let parent := files.makeParent name
      match parent.result, format with
      | .error fault, _ => saveFailure parent.files fault
      | .ok (), .text formatName =>
          match Format.ofName? formatName with
          | none => ⟨parent.files, .ok false, [.unknownFormat formatName]⟩
          | some known => savePage parent.files name (library.page known live.store (.object live.root))
      | .ok (), _ => ⟨parent.files, .error .noMember, []⟩
  | other => ⟨files, .error (.notPath other.kindName), []⟩

end Live

end ChipEight.Settings
