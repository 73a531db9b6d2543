/-
This file holds drawings: lists of commands to a tool that draws diagrams.
-/

import ChipEight.Text.Hex
import ChipEight.Value

namespace ChipEight

/-- A command to the tool that draws. -/
inductive Drawing where
  | style (name : String)
  | figure (size : Value)
  | image (rows : List (List UInt8))
  | noAxes
  | curve (name : Key) (points : List (Value × Value))
  | title (text : String)
  | acrossLabel (text : String)
  | upLabel (text : String)
  | grid
  | legend
  | save (path : String)

namespace Drawing

/-- Gray values from black to white, each drawn as a square without a blend. -/
def imageOptions : Value :=
  Value.record [("cmap", .text "gray"), ("vmin", .int 0), ("vmax", .int 255),
    ("interpolation", .text "nearest")]

/-- The transparency of the lines of a grid is three tenths. -/
def gridOptions : Value := Value.record [("alpha", .float (.ofDecimal false 3 (-1)))]

def legendOptions : Value :=
  Value.record [("loc", .text "upper right"), ("fontsize", .text "small"), ("ncol", .int 2)]

/-- A command by its name, with its arguments and its options. -/
def toValue : Drawing → Value
  | style name => .list [.text "context", .text name]
  | figure size => .list [.text "subplots", size]
  | image rows =>
      .list [.text "imshow", .texts (rows.map Hex.ofBytes), imageOptions]
  | noAxes => .list [.text "set_axis_off"]
  | curve name points =>
      .list [.text "step", .list (points.map Prod.fst), .list (points.map Prod.snd),
        Value.record [("where", .text "post"), ("label", name.toValue)]]
  | title text => .list [.text "set_title", .text text]
  | acrossLabel text => .list [.text "set_xlabel", .text text]
  | upLabel text => .list [.text "set_ylabel", .text text]
  | grid => .list [.text "grid", .bool true, gridOptions]
  | legend => .list [.text "legend", legendOptions]
  | save path =>
      .list [.text "savefig", .text path, Value.record [("bbox_inches", .text "tight")]]

end Drawing

end ChipEight
