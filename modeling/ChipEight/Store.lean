/-
This file keeps lists and mappings as objects with sites of their own. What stands in them are scalars and
the sites of other objects, so an object may stand in several places, and what is put into it shows in all of
them.
-/

import ChipEight.Value.Document

namespace ChipEight

/-- What stands in a list or a mapping. -/
inductive Cell where
  | scalar (key : Key)
  | object (site : Nat)
  deriving DecidableEq, Repr

inductive Object where
  | list (items : List Cell)
  | mapping (entries : List (Key × Cell))
  deriving Repr

/-- Objects, each at the site that is its place in the list. They stay where they are. -/
structure Store where
  objects : List Object
  deriving Repr

namespace Store

def empty : Store := ⟨[]⟩

def object? (store : Store) (site : Nat) : Option Object :=
  store.objects[site]?

/-- The entries of the mapping at a site; at another one there are none. -/
def entries (store : Store) (site : Nat) : List (Key × Cell) :=
  match store.object? site with
  | some (.mapping entries) => entries
  | _ => []

def isMapping (store : Store) (site : Nat) : Bool :=
  match store.object? site with
  | some (.mapping _) => true
  | _ => false

/-- The site of the mapping that a cell is. -/
def mapping? (store : Store) (cell : Cell) : Option Nat :=
  match cell with
  | .scalar _ => none
  | .object site => if store.isMapping site then some site else none

/-- What stands under a key of the mapping at a site. -/
def find? (store : Store) (site : Nat) (key : Key) : Option Cell :=
  Entries.find? (store.entries site) key

/-- The store with one more object, whose site is new. -/
def add (store : Store) (object : Object) : Store :=
  ⟨store.objects ++ [object]⟩

def newSite (store : Store) : Nat :=
  store.objects.length

/-- Puts a cell under a key of the mapping at a site. -/
def put (store : Store) (site : Nat) (key : Key) (cell : Cell) : Store :=
  match store.object? site with
  | some (.mapping entries) => ⟨store.objects.set site (.mapping (Entries.put entries key cell))⟩
  | _ => store

/-- The cell that keys lead to one after another. -/
def walk (store : Store) (cell : Cell) : List Key → Option Cell
  | [] => some cell
  | key :: rest =>
      match (store.mapping? cell).bind fun site => store.find? site key with
      | some inner => store.walk inner rest
      | none => none

/-! ### What cells stand for -/

/-- The value of a cell as far as so many objects inside one another. -/
def unfold (store : Store) : Nat → Cell → Value
  | _, .scalar key => key.toValue
  | 0, .object _ => .null
  | room + 1, .object site =>
      match store.object? site with
      | some (.list items) => .list (items.map (store.unfold room))
      | some (.mapping entries) => .dict (entries.map fun entry => (entry.1, store.unfold room entry.2))
      | none => .null

/-- The value of a cell. Only what is inside itself goes deeper than there are objects, and is cut off
there. -/
def look (store : Store) (cell : Cell) : Value :=
  store.unfold store.objects.length cell

/-- The document of a cell as far as so many objects inside one another, in which each object has its site for a
mark. -/
def unfoldDocument (store : Store) : Nat → Cell → Document
  | _, .scalar key => .scalar key
  | 0, .object _ => .scalar .null
  | room + 1, .object site =>
      match store.object? site with
      | some (.list items) => .list (some site) (items.map (store.unfoldDocument room))
      | some (.mapping entries) =>
          .mapping (some site) (entries.map fun entry => (entry.1, store.unfoldDocument room entry.2))
      | none => .scalar .null

/-- The document that a cell shows. -/
def document (store : Store) (cell : Cell) : Document :=
  store.unfoldDocument store.objects.length cell

end Store

/-! ### Documents in a store -/

/-- A store with the sites of the marks of a document. -/
structure Bringing where
  store : Store
  known : List (Nat × Nat)

namespace Bringing

def site? (bringing : Bringing) (mark : Option Nat) : Option Nat :=
  mark.bind fun number => bringing.known.lookup number

/-- A new object, which is known by its mark. -/
def add (bringing : Bringing) (mark : Option Nat) (object : Object) : Bringing × Cell :=
  let site := bringing.store.newSite
  (⟨bringing.store.add object, mark.toList.map (·, site) ++ bringing.known⟩, .object site)

mutual
/-- A document becomes a cell, with new objects for the marks that are not known yet. -/
def bring (bringing : Bringing) : Document → Bringing × Cell
  | .scalar key => (bringing, .scalar key)
  | .list mark items =>
      match bringing.site? mark with
      | some site => (bringing, .object site)
      | none =>
          let (filled, cells) := bringItems bringing items
          filled.add mark (.list cells)
  | .mapping mark entries =>
      match bringing.site? mark with
      | some site => (bringing, .object site)
      | none =>
          let (filled, cells) := bringEntries bringing entries
          filled.add mark (.mapping cells)

def bringItems (bringing : Bringing) : List Document → Bringing × List Cell
  | [] => (bringing, [])
  | item :: rest =>
      let (next, cell) := bring bringing item
      let (last, cells) := bringItems next rest
      (last, cell :: cells)

def bringEntries (bringing : Bringing) : List (Key × Document) → Bringing × List (Key × Cell)
  | [] => (bringing, [])
  | (key, part) :: rest =>
      let (next, cell) := bring bringing part
      let (last, cells) := bringEntries next rest
      (last, (key, cell) :: cells)
end

end Bringing

/-- The store with the objects of a document, and the cell that the document is there. -/
def Store.bring (store : Store) (document : Document) : Store × Cell :=
  let (brought, cell) := Bringing.bring ⟨store, []⟩ document
  (brought.store, cell)

end ChipEight
