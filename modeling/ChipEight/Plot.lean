/-
This file plots: it draws the picture of a display and the curves of recorded registers.
-/

import ChipEight.Display
import ChipEight.Drawing
import ChipEight.Recorder.Query
import ChipEight.Value.Grid

namespace ChipEight.Plot

inductive Note where
  | picture (path : String)
  | curves (path : String)
  | nothing
  deriving DecidableEq, Repr

namespace Note

def level : Note → Level
  | picture _ => .info
  | curves _ => .info
  | nothing => .warning

def text : Note → String
  | picture path => "Framebuffer written to " ++ path
  | curves path => "Register history written to " ++ path
  | nothing => "No register history to plot"

def record (note : Note) : Record :=
  ⟨note.level, "Chip8Emulator.Visualizer", note.text⟩

end Note

/-- What comes of plotting: the path of the plot if there is one, and the commands that were given,
also those before a fault. -/
structure Plotted where
  result : Except Fault (Option String)
  drawings : List Drawing
  notes : List Note

/-- The style of the background. -/
def style (dark : Bool) : Drawing :=
  .style (if dark then "dark_background" else "default")

/-! Pictures -/

/-- The two sides of a resolution. -/
def sidesOf (resolution : Value) : Except Fault (Value × Value) := do
  match ← resolution.parts with
  | [width, height] => pure (width, height)
  | [] => .error (.unfit (.fewParts 0))
  | [_] => .error (.unfit (.fewParts 1))
  | _ => .error (.unfit .manyParts)

/-- The bytes of pixels, whatever grid they come in; a single pixel may stand alone. -/
def bytesOf (pixels : Value) : Except Fault (List UInt8) := do
  pure ((← (← Grid.ofValue pixels).words 8).map UInt8.ofNat)

/-- The count of rows or columns that fits with the other one. -/
def openSide (size : Nat) (known : Nat) (mismatch : Fault) : Except Fault Nat :=
  if known == 0 || size % known != 0 then .error mismatch else .ok (size / known)

/-- The rows and columns of so many pixels. One of the two may be left open, by a negative number. -/
def shapeOf (size : Nat) (rows columns : Int) : Except Fault (Nat × Nat) :=
  let mismatch := Fault.unfit (.reshape size rows columns)
  if rows < 0 ∧ columns < 0 then .error (.unfit .unknownDimensions)
  else if rows < 0 then do pure (← openSide size columns.toNat mismatch, columns.toNat)
  else if columns < 0 then do pure (rows.toNat, ← openSide size rows.toNat mismatch)
  else if rows * columns == size then .ok (rows.toNat, columns.toNat)
  else .error mismatch

/-- The rows of a picture, from its top. -/
def rowsOf (bytes : List UInt8) (shape : Nat × Nat) : List (List UInt8) :=
  (List.range shape.1).map fun row => (bytes.drop (row * shape.2)).take shape.2

/-- A side of a figure is as long as its pixels, and at least one. -/
def figureSide (side scale : Value) : Except Fault Value := do
  (Value.float .one).greater (← side.times scale)

/-- The rows of the pixels of a display. -/
def imageRows (pixels width height : Value) : Except Fault (List (List UInt8)) := do
  let bytes ← bytesOf pixels
  let shape ← shapeOf bytes.length (← Display.sideOf height) (← Display.sideOf width)
  pure (rowsOf bytes shape)

/-- The size of the figure of a display. -/
def figureOf (width height scale : Value) : Except Fault (List Value) := do
  pure [← figureSide width scale, ← figureSide height scale]

/-- The length of a pixel in a figure, unless another is asked for. -/
def usualScale : Value := .float (.ofDecimal false 15 (-2))

def usualResolution : Value := .ints [Display.usualWidth, Display.usualHeight]

/-- Draws the picture of a display. A size that is no number is only found out when the figure is
asked for. -/
def picture (dark : Bool) (pixels resolution scale : Value) (path : String) : Plotted :=
  let rows := do
    let (width, height) ← sidesOf resolution
    pure (width, height, ← imageRows pixels width height)
  match rows with
  | .error fault => ⟨.error fault, [], []⟩
  | .ok (width, height, rows) =>
      match figureOf width height scale with
      | .error fault => ⟨.error fault, [style dark], []⟩
      | .ok size =>
          ⟨.ok (some path), [style dark, .figure (.list size), .image rows, .noAxes, .save path],
            [.picture path]⟩

/-! Curves -/

/-- The cycles and values of a register, by its name. -/
abbrev Series := Key × List (Value × Value)

/-- The registers that change at some time. -/
def changing (recorder : Recorder) : List String → Except Fault (List Value)
  | [] => .ok []
  | name :: rest => do
      let changes ← recorder.changes (.text name) .null .null
      let others ← changing recorder rest
      pure (if changes.isEmpty then others else .text name :: others)

/-- The names of the registers to draw: those that are asked for, or all that change. -/
def namesOf (recorder : Recorder) (wanted : Value) : Except Fault (List Value) :=
  match wanted with
  | .null => do
      let _ ← recorder.statistics
      changing recorder (← recorder.sortedRegisters)
  | names => names.parts

/-- The series of a register. A name that comes again keeps its place. -/
def addSeries (recorder : Recorder) (known : List Series) (name : Value) :
    Except Fault (List Series) := do
  let points ← recorder.registerHistory name
  match name.toKey? with
  | none => .error .wrongKind
  | some key =>
      pure (if known.any fun series => series.1.same key then known else known ++ [(key, points)])

/-- The series of the registers that have any values. -/
def seriesOf (recorder : Recorder) (names : List Value) : Except Fault (List Series) := do
  pure ((← names.foldlM (addSeries recorder) []).filter fun series => !series.2.isEmpty)

/-- A figure is twice as wide as high, unless another size is asked for. -/
def usualFigure : Value := .ints [12, 6]

def curveDrawings (dark : Bool) (size : Value) (series : List Series) (path : String) :
    List Drawing :=
  [style dark, .figure size] ++ series.map (fun one => .curve one.1 one.2) ++
    [.title "Register Activity", .acrossLabel "Cycle", .upLabel "Value", .grid, .legend,
      .save path]

/-- Draws the curves of registers, unless there is nothing to draw. Each command is given as it comes, for a tool
that takes all of them. -/
def curves (dark : Bool) (recorder : Recorder) (wanted size : Value) (path : String) : Plotted :=
  match (namesOf recorder wanted).bind (seriesOf recorder) with
  | .error fault => ⟨.error fault, [], []⟩
  | .ok [] => ⟨.ok none, [], [.nothing]⟩
  | .ok series => ⟨.ok (some path), curveDrawings dark size series path, [.curves path]⟩

end ChipEight.Plot
