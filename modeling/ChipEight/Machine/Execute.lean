/-
This file says what each instruction does. An instruction that is rejected or ignored changes nothing
but the counts of complaints.
-/

import ChipEight.Bits
import ChipEight.Machine

namespace ChipEight.Machine

abbrev Performed := Outcome (Except Fault Status)

def applied (machine : Machine) : Performed :=
  ⟨machine, .ok .applied, []⟩

/-- The complaint is counted with the place where the machine is. -/
def reject (machine : Machine) (complaint : Complaint) : Performed :=
  ⟨machine.blame complaint, .ok .rejected, [.complaint complaint machine.position]⟩

def halt (machine : Machine) (reason : HaltReason) : Performed :=
  ⟨{ machine with halted := true }, .ok .halted, [.halted reason]⟩

def ignore (machine : Machine) (event : Event) : Performed :=
  ⟨machine, .ok .ignored, [event]⟩

/-- The next instruction is passed over if the condition holds. -/
def skipIf (machine : Machine) (condition : Bool) : Performed :=
  applied (if condition then { machine with counter := machine.counter + 2 } else machine)

def jump (machine : Machine) (target : Address) : Performed :=
  if isProgramAddress target.val then applied { machine with counter := target.val }
  else machine.reject (.jumpTarget target)

/-- The address of the next instruction goes on the stack. -/
def call (machine : Machine) (target : Address) : Performed :=
  if !isProgramAddress target.val then machine.reject (.callTarget target)
  else if stackSize ≤ machine.depth then machine.reject .stackFull
  else
    match Slice.index stackSize machine.depth .listPlace with
    | .error fault => ⟨machine, .error fault, []⟩
    | .ok slot =>
        applied { machine with
          stack := machine.stack.set slot machine.counter
          depth := machine.depth + 1
          counter := target.val }

/-- The address on top of the stack is taken off and gone to. -/
def leave (machine : Machine) : Performed :=
  if machine.depth == 0 then machine.halt .stackEmpty
  else
    let shallower := { machine with depth := machine.depth - 1 }
    match Slice.index stackSize shallower.depth .listItem with
    | .error fault => ⟨shallower, .error fault, []⟩
    | .ok slot =>
        let target := machine.stack[slot]
        let moved := { shallower with counter := target }
        if isProgramAddress target then applied moved else moved.halt (.returnTarget target)

def jumpFrom (machine : Machine) (base : Address) : Performed :=
  let offset := machine.register jumpRegister
  if isProgramAddress (offset + base.val) then
    applied { machine with counter := offset + base.val }
  else machine.reject (.jumpSum offset base)

/-- A result is kept in its low eight bits. -/
def lowByte (value : Int) : Int := value % 256

def flag (condition : Bool) : Int := if condition then 1 else 0

/-- What an operation puts into the flag register, if anything, and then into the first register. -/
def combined (operation : Operation) (first second : Int) : Option Int × Int :=
  match operation with
  | .copy => (none, second)
  | .or => (none, Bits.or first second)
  | .and => (none, Bits.and first second)
  | .xor => (none, Bits.xor first second)
  | .add => (some (flag (255 < first + second)), lowByte (first + second))
  | .subtract => (some (flag (second ≤ first)), lowByte (first - second))
  | .halve => (some (first % 2), first / 2)
  | .subtractFrom => (some (flag (first ≤ second)), lowByte (second - first))
  | .double => (some (first / 128 % 2), lowByte (first * 2))

/-- The flag is written first, so as a destination the flag register holds the result. -/
def combine (machine : Machine) (operation : Operation) (x y : Register) : Machine :=
  let (flagged, result) := combined operation (machine.register x) (machine.register y)
  let marked := match flagged with
    | some value => machine.setRegister flagRegister value
    | none => machine
  marked.setRegister x result

/-- The next random byte under a mask. -/
def putRandom (machine : Machine) (x : Register) (mask : Fin 256) : Machine :=
  let (byte, source) := machine.random.next
  { machine.setRegister x ((byte.toNat &&& mask.val : Nat) : Int) with random := source }

/-- A sprite is read at the index and drawn; the flag tells whether it turned a lit pixel off. Every host
has room for the rows of a sprite. -/
def draw (machine : Machine) (x y : Register) (rows : Fin 16) : Performed :=
  if rows.val == 0 then machine.ignore .emptySprite
  else if Memory.size < machine.index + rows.val then
    machine.reject (.spriteOutside machine.index rows.val)
  else
    let sprite := machine.memory.readRange Display.tallestSprite machine.index rows.val
    let events := sprite.notes.map Event.memory
    let after := { machine with memory := sprite.memory }
    match sprite.value with
    | .error fault => ⟨after, .error fault, events⟩
    | .ok bytes =>
        match machine.display.draw (machine.register x) (machine.register y) bytes with
        | .error fault => ⟨after, .error fault, events⟩
        | .ok (display, collision) =>
            let drawn := after.setRegister flagRegister (flag collision)
            ⟨{ drawn with display := display, redraw := true }, .ok .applied, events⟩

/-- Values beyond the keys are noted and pass without effect. -/
def skipKey (machine : Machine) (x : Register) (wanted : Bool) : Performed :=
  let key := machine.register x
  if 15 < key then machine.ignore (.unknownKey key x)
  else machine.skipIf (machine.keypad.isDown key == wanted)

/-- The latched key is taken; without one the same instruction is run again. -/
def awaitKey (machine : Machine) (x : Register) : Performed :=
  match machine.keypad.latch with
  | none => ⟨{ machine with counter := machine.counter - 2 }, .ok .stalled, []⟩
  | some key =>
      applied { machine.setRegister x key.val with keypad := machine.keypad.takeLatch }

/-- The index wraps at the end of memory, which is noted. -/
def addIndex (machine : Machine) (x : Register) : Performed :=
  let amount := machine.register x
  let total := machine.index + amount
  let events := if Memory.size ≤ total then [Event.indexWrapped x machine.index amount] else []
  ⟨{ machine with index := total % Memory.size }, .ok .applied, events⟩

/-- The hundreds, tens and ones of a value. -/
def decimalDigits (value : Int) : List Int :=
  [value / 100, value / 10 % 10, value % 10]

/-- Values are stored from an address on, one after another. -/
def storeEach (memory : Memory) (place : Int) : List Int → Memory.Reply Unit
  | [] => ⟨memory, (), []⟩
  | value :: rest =>
      let first := memory.write place value
      let others := storeEach first.memory (place + 1) rest
      ⟨others.memory, (), first.notes ++ others.notes⟩

def storeAll (machine : Machine) (values : List Int) : Performed :=
  let stored := storeEach machine.memory machine.index values
  ⟨{ machine with memory := stored.memory }, .ok .applied, stored.notes.map .memory⟩

def storeDigits (machine : Machine) (x : Register) : Performed :=
  if Memory.size ≤ machine.index + 2 then machine.reject (.digitsOutside machine.index)
  else machine.storeAll (decimalDigits (machine.register x))

def storeRegisters (machine : Machine) (last : Register) : Performed :=
  if Memory.size ≤ machine.index + last.val then
    machine.reject (.storeOutside machine.index last)
  else machine.storeAll (machine.registers.toList.take (last.val + 1))

/-- Bytes are put into registers from the first on. -/
def putEach (registers : Vector Int 16) (place : Nat) : List UInt8 → Vector Int 16
  | [] => registers
  | byte :: rest => putEach (registers.setIfInBounds place byte.toNat) (place + 1) rest

def loadRegisters (machine : Machine) (last : Register) : Performed :=
  if Memory.size ≤ machine.index + last.val then
    machine.reject (.loadOutside machine.index last)
  else
    let read := machine.memory.readEach machine.index (last.val + 1)
    ⟨{ machine with
        memory := read.memory
        registers := putEach machine.registers 0 read.value }, .ok .applied,
      read.notes.map .memory⟩

def findGlyph (machine : Machine) (x : Register) : Machine :=
  { machine with index := Memory.glyphAddress (machine.register x % 16) }

/-- What an instruction does. -/
def execute (machine : Machine) : Instruction → Performed
  | .clearScreen => applied { machine with display := machine.display.clear, redraw := true }
  | .leave => machine.leave
  | .stop => machine.halt .instruction
  | .callNative word => machine.ignore (.nativeCall word)
  | .jump target => machine.jump target
  | .call target => machine.call target
  | .skipEqual x value => machine.skipIf (machine.register x == value.val)
  | .skipUnequal x value => machine.skipIf (machine.register x != value.val)
  | .skipSame x y => machine.skipIf (machine.register x == machine.register y)
  | .skipDifferent x y => machine.skipIf (machine.register x != machine.register y)
  | .put x value => applied (machine.setRegister x value.val)
  | .add x value => applied (machine.setRegister x (lowByte (machine.register x + value.val)))
  | .combine operation x y => applied (machine.combine operation x y)
  | .setIndex target => applied { machine with index := target.val }
  | .jumpFrom base => machine.jumpFrom base
  | .random x mask => applied (machine.putRandom x mask)
  | .draw x y rows => machine.draw x y rows
  | .skipPressed x => machine.skipKey x true
  | .skipReleased x => machine.skipKey x false
  | .readDelay x => applied (machine.setRegister x machine.delay)
  | .awaitKey x => machine.awaitKey x
  | .setDelay x => applied { machine with delay := machine.register x }
  | .setSound x => applied { machine with sound := machine.register x }
  | .addIndex x => machine.addIndex x
  | .findGlyph x => applied (machine.findGlyph x)
  | .storeDigits x => machine.storeDigits x
  | .storeRegisters x => machine.storeRegisters x
  | .loadRegisters x => machine.loadRegisters x

/-- What an instruction word does; a word without an instruction is rejected. -/
def perform (machine : Machine) (word : Int) : Performed :=
  match Instruction.decode word with
  | some instruction => machine.execute instruction
  | none => machine.reject (.unknownWord word)

end ChipEight.Machine
