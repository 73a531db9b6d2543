/-
This file holds the memory: 4096 bytes with the glyphs of the sixteen digits in a protected zone, and
a count of accesses. Addresses outside are noted and otherwise without effect.
-/

import ChipEight.Log
import ChipEight.Slice

namespace ChipEight

namespace Memory

def size : Nat := 0x1000

/-- The address of the first byte of a program. -/
def programStart : Nat := 0x200

def largestProgram : Nat := size - programStart

def glyphStart : Nat := 0x50

def glyphHeight : Nat := 5

/-- The glyphs of the digits, one byte for each row. -/
def glyphs : List UInt8 := [
  0xf0, 0x90, 0x90, 0x90, 0xf0,
  0x20, 0x60, 0x20, 0x20, 0x70,
  0xf0, 0x10, 0xf0, 0x80, 0xf0,
  0xf0, 0x10, 0xf0, 0x10, 0xf0,
  0x90, 0x90, 0xf0, 0x10, 0x10,
  0xf0, 0x80, 0xf0, 0x10, 0xf0,
  0xf0, 0x80, 0xf0, 0x90, 0xf0,
  0xf0, 0x10, 0x20, 0x40, 0x40,
  0xf0, 0x90, 0xf0, 0x90, 0xf0,
  0xf0, 0x90, 0xf0, 0x10, 0xf0,
  0xf0, 0x90, 0xf0, 0x90, 0x90,
  0xe0, 0x90, 0xe0, 0x90, 0xe0,
  0xf0, 0x80, 0x80, 0x80, 0xf0,
  0xe0, 0x90, 0x90, 0x90, 0xe0,
  0xf0, 0x80, 0xf0, 0x80, 0xf0,
  0xf0, 0x80, 0xf0, 0x80, 0x80]

def glyphEnd : Nat := glyphStart + glyphs.length

/-- The count of accesses is noted each time it reaches a multiple of this. -/
def accessInterval : Nat := 10000

/-- What the memory has to tell about an access. -/
inductive Note where
  | ready
  | emptyProgram
  | longProgram (length : Int)
  | programLoaded (length : Nat)
  | readOutside (address : Int)
  | accessCount (count : Nat)
  | writeOutside (address : Int)
  | writeProtected (address start stop : Int)
  | systemWrite (address : Int)
  | rangeReadOutside (address count : Int)
  | rangeWriteOutside (address : Int) (count : Nat)
  | unknownDigit (digit : Int)
  | glyphDamaged (index : Nat) (expected found : UInt8)
  | intact
  deriving DecidableEq, Repr

def address (place : Int) : String := "0x" ++ Hex.padded 4 place

def beyond : String := address size

namespace Note

def level : Note → Level
  | ready => .debug
  | emptyProgram => .error
  | longProgram _ => .error
  | programLoaded _ => .info
  | readOutside _ => .warning
  | accessCount _ => .debug
  | writeOutside _ => .warning
  | writeProtected _ _ _ => .warning
  | systemWrite _ => .debug
  | rangeReadOutside _ _ => .warning
  | rangeWriteOutside _ _ => .warning
  | unknownDigit _ => .warning
  | glyphDamaged _ _ _ => .error
  | intact => .debug

def text : Note → String
  | ready => "CHIP-8 memory system initialized"
  | emptyProgram => "No ROM data provided"
  | longProgram length =>
      "ROM size " ++ toString length ++ " exceeds maximum of " ++ toString largestProgram ++ " bytes"
  | programLoaded length =>
      "ROM loaded: " ++ toString length ++ " bytes at 0x" ++ Hex.padded 3 programStart
  | readOutside place => "Read out of bounds: " ++ address place ++ " >= " ++ beyond
  | accessCount count => toString count ++ " memory accesses"
  | writeOutside place => "Write out of bounds: " ++ address place ++ " >= " ++ beyond
  | writeProtected place start stop =>
      "Write to protected zone rejected: " ++ address place ++ " (zone " ++ address start ++ "-" ++
        address stop ++ ")"
  | systemWrite place => "Write to system area: " ++ address place
  | rangeReadOutside place count =>
      "Multi-byte read out of bounds: " ++ address place ++ "+" ++ toString count ++ " > " ++ beyond
  | rangeWriteOutside place count =>
      "Multi-byte write out of bounds: " ++ address place ++ "+" ++ toString count ++ " > " ++ beyond
  | unknownDigit digit => "Invalid font digit 0x" ++ Hex.padded 2 digit ++ ", using 0"
  | glyphDamaged index expected found =>
      "Font corrupted at index " ++ toString index ++ ": expected 0x" ++ Hex.padded 2 expected.toNat ++
        ", found 0x" ++ Hex.padded 2 found.toNat
  | intact => "Memory integrity verified"

def record (note : Note) : Record :=
  ⟨note.level, "Chip8Emulator.Memory", note.text⟩

end Note

end Memory

/-- The bytes, the zones that `write` leaves alone, and the count of accesses. -/
structure Memory where
  bytes : Vector UInt8 Memory.size
  zones : List (Int × Int)
  accesses : Nat

namespace Memory

/-- What an access gives: the memory after it, its result, and what there is to note. -/
structure Reply (A : Type) where
  memory : Memory
  value : A
  notes : List Note

def Reply.map {A B : Type} (change : A → B) (reply : Reply A) : Reply B :=
  ⟨reply.memory, change reply.value, reply.notes⟩

/-- The cell of an address, if there is one. -/
def cell? (place : Int) : Option (Fin size) :=
  if inside : 0 ≤ place ∧ place < size then some ⟨place.toNat, by omega⟩ else none

/-- The byte at an address; there are zeros outside. -/
def byteAt (memory : Memory) (place : Int) : UInt8 :=
  match cell? place with
  | some cell => memory.bytes[cell]
  | none => 0

/-- The bytes after those from `start` on are replaced. -/
def replaceFrom (bytes : Vector UInt8 size) (start : Nat) : List UInt8 → Vector UInt8 size
  | [] => bytes
  | byte :: rest => replaceFrom (bytes.setIfInBounds start byte) (start + 1) rest

/-- The memory after all bytes are cleared, the glyphs among them. -/
def clear (memory : Memory) : Memory :=
  ⟨Vector.replicate size 0, memory.zones, 0⟩

/-- The memory after the glyphs are put in place, whatever is protected. -/
def loadGlyphs (memory : Memory) : Memory :=
  { memory with bytes := replaceFrom memory.bytes glyphStart glyphs }

def reset (memory : Memory) : Memory :=
  memory.clear.loadGlyphs

/-- A new memory has one protected zone, that of the glyphs. -/
def initial : Memory :=
  loadGlyphs ⟨Vector.replicate size 0, [(glyphStart, glyphEnd)], 0⟩

/-- The reason why a program of this length cannot be loaded. -/
def lengthNote? (length : Int) : Option Note :=
  if length == 0 then some .emptyProgram
  else if largestProgram < length then some (.longProgram length)
  else none

/-- The memory with a program in its area and zeros after it. -/
def withProgram (memory : Memory) (program : List UInt8) : Memory :=
  let cleared := replaceFrom memory.bytes programStart (List.replicate largestProgram 0)
  { memory with bytes := replaceFrom cleared programStart program }

/-- A program is loaded if its length allows; no program counts as an empty one. -/
def load (memory : Memory) (program : Option (List UInt8)) : Reply Bool :=
  let bytes := program.getD []
  match lengthNote? bytes.length with
  | some note => ⟨memory, false, [note]⟩
  | none => ⟨memory.withProgram bytes, true, [.programLoaded bytes.length]⟩

/-- Reading counts as an access from the program area on. -/
def read (memory : Memory) (place : Int) : Reply UInt8 :=
  if 0 ≤ place ∧ place < size then
    if programStart ≤ place then
      let count := memory.accesses + 1
      let notes := if count % accessInterval == 0 then [Note.accessCount count] else []
      ⟨{ memory with accesses := count }, memory.byteAt place, notes⟩
    else ⟨memory, memory.byteAt place, []⟩
  else ⟨memory, 0, [.readOutside place]⟩

/-- The first zone that an address lies in. -/
def zone? (memory : Memory) (place : Int) : Option (Int × Int) :=
  memory.zones.find? fun zone => zone.1 ≤ place && place < zone.2

/-- The low eight bits of a number. -/
def lowByte (value : Int) : UInt8 :=
  UInt8.ofNat (value % 256).toNat

/-- The low eight bits of a value are stored unless the address is protected. -/
def write (memory : Memory) (place value : Int) : Reply Unit :=
  match cell? place with
  | none => ⟨memory, (), [.writeOutside place]⟩
  | some cell =>
      match memory.zone? place with
      | some (start, stop) => ⟨memory, (), [.writeProtected place start stop]⟩
      | none =>
          let notes :=
            if glyphEnd ≤ place ∧ place < programStart then [Note.systemWrite place] else []
          ⟨{ memory with
              bytes := memory.bytes.set cell (lowByte value)
              accesses := memory.accesses + 1 }, (), notes⟩

/-- A range lies in the memory. -/
def fits (place count : Int) : Bool :=
  0 ≤ place && place + count ≤ size

/-- The bytes from an address on, one after another. -/
def readEach (memory : Memory) (place : Int) : Nat → Reply (List UInt8)
  | 0 => ⟨memory, [], []⟩
  | count + 1 =>
      let first := memory.read place
      let others := readEach first.memory (place + 1) count
      ⟨others.memory, first.value :: others.value, first.notes ++ others.notes⟩

/-- No byte string is longer than this. -/
def longestBytes : Int := Nat.pow 2 63 - 34

/-- A range is read as a whole; one that does not fit gives zeros, for which the host has to have room. -/
def readRange (memory : Memory) (room : Nat) (place count : Int) : Reply (Except Fault (List UInt8)) :=
  if fits place count then (memory.readEach place count.toNat).map .ok
  else
    let zeros : Except Fault (List UInt8) :=
      if count < 0 then .error (.unfit .negativeCount)
      else if longestBytes < count then .error .tooLarge
      else if room < count then .error (.noRoom .bytes)
      else .ok (List.replicate count.toNat 0)
    ⟨memory, zeros, [.rangeReadOutside place count]⟩

/-- Bytes are stored from an address on, one after another. -/
def writeEach (memory : Memory) (place : Int) : List UInt8 → Reply Unit
  | [] => ⟨memory, (), []⟩
  | byte :: rest =>
      let first := memory.write place byte.toNat
      let others := writeEach first.memory (place + 1) rest
      ⟨others.memory, (), first.notes ++ others.notes⟩

/-- A range is written as a whole; of one that does not fit nothing is. -/
def writeRange (memory : Memory) (place : Int) (data : List UInt8) : Reply Bool :=
  if fits place data.length then (memory.writeEach place data).map fun _ => true
  else ⟨memory, false, [.rangeWriteOutside place data.length]⟩

/-- The address of the glyph of a digit. -/
def glyphAddress (digit : Int) : Int :=
  if 0 ≤ digit ∧ digit ≤ 15 then glyphStart + digit * glyphHeight else glyphStart

/-- Other numbers than digits have the glyph of zero, which is noted. -/
def glyphNotes (digit : Int) : List Note :=
  if 0 ≤ digit ∧ digit ≤ 15 then [] else [.unknownDigit digit]

/-- The memory after one byte is set directly, at a place that may count from the end. -/
def poke (memory : Memory) (place value : Int) : Except Fault Memory :=
  if Slice.isIndex place then
    if 0 ≤ value ∧ value < 256 then do
      let cell ← Slice.index size place .memoryCell
      pure { memory with bytes := memory.bytes.set cell (lowByte value) }
    else .error (.unfit .byteRange)
  else .error (.gap .beyondIndexes)

def protect (memory : Memory) (start stop : Int) : Memory :=
  { memory with zones := memory.zones ++ [(start, stop)] }

/-- The count of bytes other than zero in a slice. -/
def countNonZero (memory : Memory) (start stop : Option Int) : Nat :=
  (Slice.ofList memory.bytes.toList start stop).countP fun byte => byte != 0

/-- The count of bytes other than zero in the program area. -/
def programBytes (memory : Memory) : Nat :=
  memory.countNonZero (some programStart) (some size)

def summary (memory : Memory) : String :=
  "Memory: " ++ toString memory.programBytes ++ "B program, " ++ toString glyphs.length ++
    "B fonts, " ++ toString memory.accesses ++ " total accesses"

/-- A note for each byte of the glyphs that is not what it should be. -/
def damage (memory : Memory) : List Note :=
  glyphs.zipIdx.filterMap fun (expected, index) =>
    let found := memory.byteAt (glyphStart + index)
    if found == expected then none else some (.glyphDamaged index expected found)

def isIntact (memory : Memory) : Bool :=
  memory.damage.isEmpty

def integrityNotes (memory : Memory) : List Note :=
  if memory.isIntact then [.intact] else memory.damage

/-- The name of the area of an address. -/
def areaName (place : Int) : String :=
  if place < 0 ∨ size ≤ place then "out of bounds"
  else if place < glyphStart then "system"
  else if place < glyphEnd then "fonts"
  else if place < programStart then "free"
  else "program"

def describe (memory : Memory) (place : Int) : String :=
  if 0 ≤ place ∧ place < size then
    address place ++ ": " ++ areaName place ++ " = 0x" ++
      Hex.padded 2 (memory.byteAt place).toNat
  else address place ++ ": OUT OF BOUNDS"

end Memory

end ChipEight
