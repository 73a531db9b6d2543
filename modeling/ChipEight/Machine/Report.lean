/-
This file shows the states of a machine and of its parts: as mappings, with registers by name, and as
lines for people. It also sets parts of a machine by their names.
-/

import ChipEight.Machine
import ChipEight.Value

namespace ChipEight

def Memory.state (memory : Memory) : Value :=
  Value.record [("size", .int Memory.size), ("access_count", .int memory.accesses),
    ("program_bytes", .int memory.programBytes),
    ("protected_zones", .list (memory.zones.map fun zone => .ints [zone.1, zone.2]))]

def Display.state (display : Display) : Value :=
  Value.record [("width", .int display.width), ("height", .int display.height),
    ("active_pixels", .int display.countLit)]

namespace Keypad

/-- A key by its code, or nothing. -/
def keyValue (key : Option (Fin 16)) : Value :=
  (key.map fun code => Value.int code.val).getD .null

def state (keypad : Keypad) : Value :=
  Value.record [("pressed", .ints (keypad.pressed.map fun key => (key.val : Int))),
    ("last_key_pressed", keyValue keypad.latch)]

end Keypad

/-- The counts of complaints by their categories. -/
def Tally.toValue (tally : Tally) : Value :=
  Value.record [(Category.bounds.name, .int tally.bounds),
    (Category.structural.name, .int tally.structural), (Category.decode.name, .int tally.decode)]

namespace Machine

def registerName (register : Register) : String :=
  "V" ++ String.ofList [Hex.digit register.val]

/-- All registers by name, the timers among them. -/
def namedRegisters (machine : Machine) : List (String × Value) :=
  ((List.finRange 16).map fun register =>
    (registerName register, Value.int (machine.register register))) ++
  [("I", .int machine.index), ("PC", .int machine.counter), ("SP", .int machine.depth),
    ("DT", .int machine.delay), ("ST", .int machine.sound)]

/-- The part of the stack below the depth. -/
def liveStack (machine : Machine) : List Int :=
  Slice.ofList machine.stack.toList none (some machine.depth)

/-- The state as a mapping. -/
def state (machine : Machine) : Value :=
  Value.record [
    ("V", .ints machine.registers.toList), ("I", .int machine.index),
    ("PC", .int machine.counter), ("SP", .int machine.depth),
    ("stack", .ints machine.liveStack), ("DT", .int machine.delay), ("ST", .int machine.sound),
    ("halted", .bool machine.halted), ("error_count", .int machine.errors),
    ("cycles", .int machine.cycles), ("last_instruction", .int machine.last)]

/-- The machine after the part of a name is set. Flags take the truth of a value, and what is no number
counts as zero. -/
def setPart (machine : Machine) (name : String) (value : Value) : Machine :=
  let number := value.whole?.getD 0
  match name with
  | "I" => { machine with index := number }
  | "PC" => { machine with counter := number }
  | "SP" => { machine with depth := number }
  | "delay_timer" => { machine with delay := number }
  | "sound_timer" => { machine with sound := number }
  | "draw_flag" => { machine with redraw := value.isTrue }
  | "halted" => { machine with halted := value.isTrue }
  | "error_count" => { machine with errors := number }
  | _ => machine

def truthWord (flag : Bool) : String := if flag then "True" else "False"

def summary (machine : Machine) : String :=
  "Cycles: " ++ toString machine.cycles ++ " | Errors: " ++ toString machine.errors ++
    " | Halted: " ++ truthWord machine.halted ++ " | Stack: " ++ toString machine.depth ++ "/" ++
    toString stackSize

def details (machine : Machine) : String :=
  let registers := " ".intercalate (machine.registers.toList.map (Hex.padded 2))
  "PC: 0x" ++ Hex.padded 4 machine.counter ++ " | I: 0x" ++ Hex.padded 4 machine.index ++
    " | SP: " ++ toString machine.depth ++ " | DT: " ++ toString machine.delay ++ " | ST: " ++
    toString machine.sound ++ " | V0-F: [" ++ registers ++ "] | Cycles: " ++
    toString machine.cycles ++ " | Err: " ++ toString machine.errors

end Machine

end ChipEight
