/-
This file holds the keypad: sixteen keys that are up or down, and a latch for the key that went down
last. Letting a key go leaves the latch, and taking the latch leaves the key.
-/

import ChipEight.Log
import ChipEight.Text.Hex

namespace ChipEight

/-- Which of the sixteen keys are down, and the key that was pressed last and not yet taken. -/
structure Keypad where
  down : Vector Bool 16
  latch : Option (Fin 16)
  deriving DecidableEq

namespace Keypad

/-- Codes of no key are noted and have no effect. -/
inductive Note where
  | pressIgnored (code : Int)
  | releaseIgnored (code : Int)
  deriving DecidableEq, Repr

def Note.level : Note → Level
  | pressIgnored _ => .debug
  | releaseIgnored _ => .debug

def Note.text : Note → String
  | pressIgnored code => "Ignoring key down for invalid key " ++ toString code
  | releaseIgnored code => "Ignoring key up for invalid key " ++ toString code

def Note.record (note : Note) : Record :=
  ⟨note.level, "Chip8Emulator.Keypad", note.text⟩

def initial : Keypad := ⟨Vector.replicate 16 false, none⟩

/-- The key of a code, if there is one. -/
def key? (code : Int) : Option (Fin 16) :=
  if inside : 0 ≤ code ∧ code < 16 then some ⟨code.toNat, by omega⟩ else none

def press (keypad : Keypad) (code : Int) : Keypad :=
  match key? code with
  | some key => ⟨keypad.down.set key true, some key⟩
  | none => keypad

/-- A note shows a code however many digits it has. -/
def pressNotes (code : Int) : List Note :=
  if (key? code).isSome then [] else [.pressIgnored code]

def release (keypad : Keypad) (code : Int) : Keypad :=
  match key? code with
  | some key => ⟨keypad.down.set key false, keypad.latch⟩
  | none => keypad

def releaseNotes (code : Int) : List Note :=
  if (key? code).isSome then [] else [.releaseIgnored code]

def isDown (keypad : Keypad) (code : Int) : Bool :=
  match key? code with
  | some key => keypad.down[key]
  | none => false

/-- The keypad after the latch is taken. -/
def takeLatch (keypad : Keypad) : Keypad :=
  ⟨keypad.down, none⟩

/-- The keys that are down, in order. -/
def pressed (keypad : Keypad) : List (Fin 16) :=
  (List.finRange 16).filter fun key => keypad.down[key]

def summary (keypad : Keypad) : String :=
  let digitOf (key : Fin 16) := String.ofList [Hex.digit key.val]
  let last := match keypad.latch with
    | some key => " | Last: " ++ digitOf key
    | none => ""
  "Keys: " ++ " ".intercalate (keypad.pressed.map digitOf) ++ last

end Keypad

end ChipEight
