/-
This file holds the machine: sixteen registers, an index, a program counter, a stack of return
addresses, two timers, and the memory, display, keypad and random bytes that it drives. Faults of a
program never stop the host. They are complaints, which the machine counts; ten of them halt it.
-/

import ChipEight.Category
import ChipEight.Display
import ChipEight.Instruction
import ChipEight.Keypad
import ChipEight.Memory
import ChipEight.RandomBytes

namespace ChipEight

/-- How an instruction ends. -/
inductive Status where
  | applied
  | ignored
  | stalled
  | rejected
  | halted
  deriving DecidableEq, Repr

def Status.name : Status → String
  | applied => "APPLIED"
  | ignored => "IGNORED"
  | stalled => "STALLED"
  | rejected => "REJECTED"
  | halted => "HALTED"

/-- What is wrong with a program. -/
inductive Complaint where
  | counterOutside (counter : Int)
  | counterOdd (counter : Int)
  | fetchOutside (counter : Int)
  | unknownWord (word : Int)
  | jumpTarget (target : Address)
  | callTarget (target : Address)
  | stackFull
  | jumpSum (offset : Int) (base : Address)
  | spriteOutside (index : Int) (rows : Nat)
  | digitsOutside (index : Int)
  | storeOutside (index : Int) (last : Register)
  | loadOutside (index : Int) (last : Register)
  deriving DecidableEq, Repr

namespace Complaint

def category : Complaint → Category
  | counterOutside _ => .structural
  | counterOdd _ => .structural
  | fetchOutside _ => .bounds
  | unknownWord _ => .decode
  | jumpTarget _ => .structural
  | callTarget _ => .structural
  | stackFull => .structural
  | jumpSum _ _ => .structural
  | spriteOutside _ _ => .bounds
  | digitsOutside _ => .bounds
  | storeOutside _ _ => .bounds
  | loadOutside _ _ => .bounds

def text : Complaint → String
  | counterOutside counter =>
      "PC out of program area: 0x" ++ Hex.padded 4 counter ++ ", reset to 0x" ++
        Hex.padded 3 Memory.programStart
  | counterOdd counter => "Odd PC: 0x" ++ Hex.padded 4 counter
  | fetchOutside counter => "Fetch past end of memory at 0x" ++ Hex.padded 4 counter
  | unknownWord word => "Unknown instruction " ++ Hex.padded 4 word
  | jumpTarget target => "Invalid jump target 0x" ++ Hex.padded 3 target.val
  | callTarget target => "Invalid call target 0x" ++ Hex.padded 3 target.val
  | stackFull => "Stack overflow on call"
  | jumpSum offset base =>
      "Invalid jump V0+nnn: V0=" ++ Hex.padded 2 offset ++ " + " ++ Hex.padded 3 base.val ++ " = " ++
        Hex.padded 4 (offset + base.val)
  | spriteOutside index rows =>
      "Sprite read past end of memory: I=0x" ++ Hex.padded 4 index ++ ", n=" ++ toString rows
  | digitsOutside index => "BCD store past end of memory: I=0x" ++ Hex.padded 4 index
  | storeOutside index last =>
      "Register store past end of memory: I=0x" ++ Hex.padded 4 index ++ ", x=" ++ toString last.val
  | loadOutside index last =>
      "Register load past end of memory: I=0x" ++ Hex.padded 4 index ++ ", x=" ++ toString last.val

end Complaint

/-- Why the machine halts. -/
inductive HaltReason where
  | tooManyErrors (count : Int)
  | fetchOutside
  | stackEmpty
  | returnTarget (target : Int)
  | instruction
  deriving DecidableEq, Repr

def HaltReason.text : HaltReason → String
  | tooManyErrors count => "Error threshold reached (" ++ toString count ++ " errors)"
  | fetchOutside => "Fetch past end of memory"
  | stackEmpty => "Stack underflow on return"
  | returnTarget target => "Invalid return address 0x" ++ Hex.padded 4 target
  | instruction => "Halt instruction"

/-- Where the machine was at a complaint. -/
structure Position where
  counter : Int
  instruction : Int
  cycle : Nat
  deriving DecidableEq, Repr

/-- What happens in the machine, in order. -/
inductive Event where
  | complaint (cause : Complaint) (position : Position)
  | halted (reason : HaltReason)
  | executed (place word : Int) (status : Status)
  | nativeCall (word : Int)
  | emptySprite
  | unknownKey (key : Int) (x : Register)
  | indexWrapped (x : Register) (index amount : Int)
  | ready
  | memory (note : Memory.Note)
  | display (note : Display.Note)
  | keypad (note : Keypad.Note)
  deriving DecidableEq, Repr

namespace Event

def level : Event → Level
  | complaint _ _ => .warning
  | halted _ => .info
  | executed _ _ _ => .debug
  | nativeCall _ => .debug
  | emptySprite => .debug
  | unknownKey _ _ => .debug
  | indexWrapped _ _ _ => .debug
  | ready => .debug
  | memory note => note.level
  | display note => note.level
  | keypad note => note.level

def text : Event → String
  | complaint cause _ => cause.text ++ " (" ++ cause.category.name ++ ")"
  | halted reason => "CPU halted: " ++ reason.text
  | executed place word status =>
      "0x" ++ Hex.padded 3 place ++ ": " ++ Hex.padded 4 word ++ " -> " ++ status.name
  | nativeCall word => "Ignoring SYS " ++ Hex.padded 4 word
  | emptySprite => "DRW with height 0 ignored"
  | unknownKey key x =>
      "Invalid key 0x" ++ Hex.padded 2 key ++ " in V" ++ Hex.padded 1 x.val
  | indexWrapped x index amount =>
      "ADD I, V" ++ Hex.padded 1 x.val ++ " wrapped: 0x" ++ Hex.padded 4 index ++ " + " ++
        Hex.padded 2 amount
  | ready => "CHIP-8 CPU initialized"
  | memory note => note.text
  | display note => note.text
  | keypad note => note.text

/-- The record that is made of an event if nobody takes complaints. -/
def record : Event → Record
  | memory note => note.record
  | display note => note.record
  | keypad note => note.record
  | event => ⟨event.level, "Chip8Emulator.CPU", event.text⟩

end Event

/-- The complaints since the last reset, by category. -/
structure Tally where
  bounds : Nat
  structural : Nat
  decode : Nat
  deriving DecidableEq, Repr

/-- Complaints of programs are of three categories only. -/
def Tally.count (tally : Tally) : Category → Tally
  | .bounds => { tally with bounds := tally.bounds + 1 }
  | .structural => { tally with structural := tally.structural + 1 }
  | .decode => { tally with decode := tally.decode + 1 }
  | _ => tally

/-- A machine between two cycles. Registers, index, counter, depth and timers are whole numbers without
bounds, because a host may set them to any. `last` is the word that was fetched last, and `errors` and
`tally` count the complaints since the last reset. -/
structure Machine where
  memory : Memory
  display : Display
  keypad : Keypad
  random : RandomBytes
  registers : Vector Int 16
  index : Int
  counter : Int
  depth : Int
  stack : Vector Int 16
  delay : Int
  sound : Int
  redraw : Bool
  tone : Bool
  halted : Bool
  errors : Int
  tally : Tally
  cycles : Nat
  last : Int

namespace Machine

/-- The seed of random bytes where none is given. -/
def usualSeed : Nat := 12345

/-- So many complaints halt the machine. -/
def haltThreshold : Int := 10

/-- With so many complaints the machine no longer counts as healthy. -/
def healthThreshold : Int := 5

/-- So many calls may be open at once. -/
def stackSize : Nat := 16

/-- The register that takes carries, borrows and collisions. -/
def flagRegister : Register := 15

/-- The register that a jump by a sum adds to its target. -/
def jumpRegister : Register := 0

/-- What an action of the machine gives: the machine after it, its result, and what happened. -/
structure Outcome (A : Type) where
  machine : Machine
  result : A
  events : List Event

/-- A machine as it is after a reset, on the given parts. -/
def fresh (memory : Memory) (display : Display) (keypad : Keypad) (random : RandomBytes) :
    Machine where
  memory
  display
  keypad
  random
  registers := Vector.replicate 16 0
  index := 0
  counter := Memory.programStart
  depth := 0
  stack := Vector.replicate 16 0
  delay := 0
  sound := 0
  redraw := false
  tone := false
  halted := false
  errors := 0
  tally := ⟨0, 0, 0⟩
  cycles := 0
  last := 0

/-- A new machine with a display and a source of random bytes. -/
def new (display : Display) (random : RandomBytes) : Machine :=
  fresh .initial display .initial random

/-- What is noted when a machine is made. -/
def newEvents : List Event := [.memory .ready, .ready]

/-- All is as in a new machine but for the random bytes, which go on. -/
def reset (machine : Machine) : Machine :=
  fresh machine.memory.reset machine.display.clear .initial machine.random

/-- A program is loaded into a machine that is reset, unless its length does not allow it. -/
def load (machine : Machine) (program : Option (List UInt8)) : Outcome Bool :=
  let bytes := program.getD []
  match Memory.lengthNote? bytes.length with
  | some note => ⟨machine, false, [.memory note]⟩
  | none =>
      let cleared := machine.reset
      let loaded := cleared.memory.load (some bytes)
      ⟨{ cleared with memory := loaded.memory, redraw := true }, true,
        loaded.notes.map .memory⟩

/-- Where the machine is, for a complaint. -/
def position (machine : Machine) : Position :=
  ⟨machine.counter, machine.last, machine.cycles⟩

/-- The machine after a complaint is counted. -/
def blame (machine : Machine) (complaint : Complaint) : Machine :=
  { machine with
    errors := machine.errors + 1
    tally := machine.tally.count complaint.category }

def press (machine : Machine) (code : Int) : Machine :=
  { machine with keypad := machine.keypad.press code }

def release (machine : Machine) (code : Int) : Machine :=
  { machine with keypad := machine.keypad.release code }

def register (machine : Machine) (place : Register) : Int :=
  machine.registers[place]

def setRegister (machine : Machine) (register : Register) (value : Int) : Machine :=
  { machine with registers := machine.registers.set register value }

/-- Programs run at even addresses of the program area. -/
def isProgramAddress (place : Int) : Bool :=
  Memory.programStart ≤ place && place < Memory.size && place % 2 == 0

/-- A machine is healthy while it runs with few complaints and a stack that is not full. -/
def isHealthy (machine : Machine) : Bool :=
  !machine.halted && machine.errors < healthThreshold && machine.depth < stackSize

/-- Whether the machine goes on; one that is not healthy counts as stopped. -/
def isRunning (machine : Machine) : Bool :=
  !machine.halted && machine.isHealthy

end Machine

end ChipEight
