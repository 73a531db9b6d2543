/-
This file shows a range of memory as lines of sixteen bytes: the address, the bytes in base sixteen,
and the characters that they stand for.
-/

import ChipEight.Memory

namespace ChipEight.Memory

/-- The bytes on one line. -/
def lineLength : Nat := 16

/-- Blanks after a text up to a width. -/
def filled (width : Nat) (text : List Char) : List Char :=
  text ++ List.replicate (width - text.length) ' '

/-- A byte as a character, or a point. -/
def shownByte (byte : UInt8) : Char :=
  if 32 ≤ byte ∧ byte ≤ 126 then Char.ofNat byte.toNat else '.'

def hexColumn (bytes : List UInt8) : List Char :=
  filled (3 * lineLength - 1) ([' '].intercalate (bytes.map Hex.byte))

def characterColumn (bytes : List UInt8) : List Char :=
  filled lineLength (bytes.map shownByte)

def dumpLine (place : Nat) (bytes : List UInt8) : List Char :=
  (Hex.padded 4 place).toList ++ [':', ' '] ++ hexColumn bytes ++ [' ', ' ', '|'] ++
    characterColumn bytes ++ ['|']

/-- The lines of bytes whose first address is `place`. -/
def dumpLines (place : Nat) (bytes : List UInt8) : List (List Char) :=
  match bytes with
  | [] => []
  | first :: rest =>
      dumpLine place ((first :: rest).take lineLength) ::
        dumpLines (place + lineLength) ((first :: rest).drop lineLength)
termination_by bytes.length
decreasing_by
  simp only [lineLength, List.drop_succ_cons, List.length_drop, List.length_cons]
  omega

/-- The bytes from `start` up to `stop`. -/
def slice (memory : Memory) (start stop : Nat) : List UInt8 :=
  (memory.bytes.toList.take stop).drop start

/-- The dump of a range, which ends with the memory. -/
def dump (memory : Memory) (start length : Int) : String :=
  let first := max 0 start
  let stop := min (first + length) size
  if stop ≤ first then "Memory dump 0x" ++ Hex.padded 4 first ++ ": empty range\n"
  else
    let header := "Memory dump 0x" ++ Hex.padded 4 first ++ "-0x" ++ Hex.padded 4 (stop - 1) ++ ":"
    let lines := dumpLines first.toNat (memory.slice first.toNat stop.toNat)
    "\n".intercalate (header :: lines.map String.ofList) ++ "\n"

end ChipEight.Memory
