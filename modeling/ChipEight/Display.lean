/-
This file holds the display: a grid of pixels on which sprites are drawn. Every position wraps around
both edges. A sprite turns its pixels over and tells whether it turned a lit one off. On a grid
smaller than the sprite one pixel is reached more than once: then each turn starts from the old
pixel, and the last one stays.
-/

import ChipEight.Fault
import ChipEight.Log
import ChipEight.Slice

namespace ChipEight

/-- Rows from the top, each from the left. -/
structure Display where
  width : Nat
  height : Nat
  rows : Vector (Vector Bool width) height

namespace Display

def usualWidth : Nat := 64

def usualHeight : Nat := 32

/-- The count of the pixels that every host has room for. -/
def usualPixels : Nat := usualWidth * usualHeight

/-- A sprite has at most this many rows. -/
def tallestSprite : Nat := 15

inductive Note where
  | spriteCut (rows : Nat)
  deriving DecidableEq, Repr

def Note.level : Note → Level
  | spriteCut _ => .warning

def Note.text : Note → String
  | spriteCut rows =>
      "Sprite has " ++ toString rows ++ " rows, truncating to " ++ toString tallestSprite

def Note.record (note : Note) : Record :=
  ⟨note.level, "Chip8Emulator.Display", note.text⟩

def blank (width height : Nat) : Display :=
  ⟨width, height, .ofFn fun _ => Vector.replicate width false⟩

/-- A side as given. Truth values are no sides, and a side has its place among the indexes. -/
def sideOf (value : Value) : Except Fault Int :=
  match value with
  | .int side => if Slice.isIndex side then .ok side else .error (.unfit .largeDimension)
  | _ => .error .wrongKind

/-- So many pixels are more than the host can count. -/
def countLimit : Nat := Nat.pow 2 63

/-- A dark grid of the given size, if the host has room for its pixels. -/
def make (room : Nat) (width height : Int) : Except Fault Display :=
  let count := width.toNat * height.toNat
  if width < 0 || height < 0 then .error (.unfit .negativeDimension)
  else if countLimit ≤ count then .error (.unfit .largeGrid)
  else if room < count then .error (.noRoom (.grid [height.toNat, width.toNat]))
  else .ok (blank width.toNat height.toNat)

/-- A dark grid with sides as given; the height is looked at first. -/
def ofSides (room : Nat) (width height : Value) : Except Fault Display := do
  let down ← sideOf height
  let across ← sideOf width
  make room across down

def clear (display : Display) : Display :=
  blank display.width display.height

/-- The pixel at a place of the grid; places outside are dark. -/
def pixelAt (display : Display) (x y : Nat) : Bool :=
  if down : y < display.height then
    if across : x < display.width then (display.rows[y])[x] else false
  else false

def pixel (display : Display) (x y : Int) : Bool :=
  0 ≤ x && 0 ≤ y && display.pixelAt x.toNat y.toNat

/-- The display with one pixel lit or dark; places outside are left alone. -/
def setAt (display : Display) (x y : Nat) (lit : Bool) : Display :=
  if down : y < display.height then
    { display with rows := display.rows.set y ((display.rows[y]).setIfInBounds x lit) }
  else display

/-- The place on a side of the grid. -/
def wrap (side : Nat) (position : Int) : Nat :=
  (position % side).toNat

/-- Positions wrap; a grid without pixels has none to set. -/
def setPixel (display : Display) (x y : Int) (lit : Bool) : Except Fault Display :=
  if display.height == 0 || display.width == 0 then .error .zeroDivisor
  else .ok (display.setAt (wrap display.width x) (wrap display.height y) lit)

/-- Positions of sprites are words of sixty-four bits with a sign. -/
def isPosition (position : Int) : Bool :=
  Bits.isSigned 64 position

/-- The sum of a position and an offset as a word. -/
def offset (position : Int) (distance : Nat) : Int :=
  Bits.signed 64 (position + distance)

/-- A pixel of a sprite on the grid, and whether the sprite turns it over. -/
structure Cell where
  x : Nat
  y : Nat
  turned : Bool
  deriving DecidableEq, Repr

/-- The pixel of a row of a sprite, counted from its highest bit. -/
def bit (row : UInt8) (column : Nat) : Bool :=
  row.toNat.testBit (7 - column)

/-- The pixels that a sprite reaches, row by row from the left. -/
def cells (width height : Nat) (x y : Int) (sprite : List UInt8) : List Cell :=
  sprite.zipIdx.flatMap fun (row, down) =>
    (List.range 8).map fun across =>
      ⟨wrap width (offset x across), wrap height (offset y down), bit row across⟩

/-- The display after each pixel of the list is set from its old state. -/
def turn (display : Display) (reached : List Cell) : Display :=
  reached.foldl
    (fun changed cell => changed.setAt cell.x cell.y (display.pixelAt cell.x cell.y != cell.turned))
    display

/-- Some lit pixel of the list is turned over. -/
def meets (display : Display) (reached : List Cell) : Bool :=
  reached.any fun cell => display.pixelAt cell.x cell.y && cell.turned

/-- Why a sprite cannot be drawn. -/
def drawFault? (display : Display) (x y : Int) (sprite : List UInt8) : Option Fault :=
  if sprite.isEmpty then none
  else if !isPosition x || !isPosition y then some .tooLarge
  else if display.height == 0 then some (.gap (.axis 0))
  else if display.width == 0 then some (.gap (.axis 1))
  else none

/-- The display after a sprite is drawn, and whether a lit pixel was turned off. -/
def draw (display : Display) (x y : Int) (sprite : List UInt8) : Except Fault (Display × Bool) :=
  let rows := sprite.take tallestSprite
  match display.drawFault? x y rows with
  | some fault => .error fault
  | none =>
      let reached := cells display.width display.height x y rows
      .ok (display.turn reached, display.meets reached)

/-- A sprite with too many rows is cut, which is noted. -/
def drawNotes (count : Nat) : List Note :=
  if tallestSprite < count then [.spriteCut count] else []

/-- The byte that a value stands for in a row of bytes. -/
def byteOf (value : Value) : Except Fault UInt8 :=
  match value.whole? with
  | none => .error .wrongKind
  | some number =>
      if 0 ≤ number ∧ number < 256 then .ok (UInt8.ofNat number.toNat)
      else .error (.unfit .byteRange)

/-- The rows of a sprite given as a value, and the count before it is cut. -/
def spriteOf (value : Value) : Except Fault (List UInt8) × Nat :=
  match value with
  | .list items => ((items.take tallestSprite).mapM byteOf, items.length)
  | .text characters =>
      (if characters.isEmpty then .ok [] else .error .wrongKind, characters.length)
  | .dict entries => (if entries.isEmpty then .ok [] else .error .wrongKind, entries.length)
  | _ => (.error .wrongKind, 0)

/-- All pixels, row by row. -/
def pixels (display : Display) : List Bool :=
  display.rows.toList.flatMap Vector.toList

def countLit (display : Display) : Nat :=
  display.pixels.count true

/-- A lit pixel is 255 and a dark one 0. -/
def buffer (display : Display) : List UInt8 :=
  display.pixels.map fun lit => if lit then 255 else 0

/-- The rows as lines of marks. -/
def render (display : Display) (lit dark : String) : String :=
  "\n".intercalate (display.rows.toList.map fun row =>
    String.join (row.toList.map fun pixel => if pixel then lit else dark))

/-- The text of a mark. A mark that no pixel needs may be any value. -/
def markText (isNeeded : Bool) (mark : Value) : Except Fault String :=
  match mark with
  | .text characters => .ok characters
  | _ => if isNeeded then .error .wrongKind else .ok ""

/-- The rows as lines of marks that are given as values. -/
def renderWith (display : Display) (lit dark : Value) : Except Fault String := do
  pure (display.render (← markText (display.pixels.contains true) lit)
    (← markText (display.pixels.contains false) dark))

end Display

end ChipEight
