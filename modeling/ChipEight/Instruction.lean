/-
This file decodes instruction words. The highest four of the sixteen low bits choose the family, and
the rest name registers, an address, a byte, or one operation of the family.
-/

namespace ChipEight

/-- The number of a register. -/
abbrev Register := Fin 16

/-- The twelve bits of an address that a word can name. -/
abbrev Address := Fin 4096

/-- What one register does with another. -/
inductive Operation where
  | copy
  | or
  | and
  | xor
  | add
  | subtract
  | halve
  | subtractFrom
  | double
  deriving DecidableEq, Repr

/-- What a word asks for. Fields are as wide as the bits of the word that name them, so no decoded
instruction names a register or an address that does not exist. -/
inductive Instruction where
  | clearScreen
  | leave
  | stop
  | callNative (word : Int)
  | jump (target : Address)
  | call (target : Address)
  | skipEqual (x : Register) (value : Fin 256)
  | skipUnequal (x : Register) (value : Fin 256)
  | skipSame (x y : Register)
  | skipDifferent (x y : Register)
  | put (x : Register) (value : Fin 256)
  | add (x : Register) (value : Fin 256)
  | combine (operation : Operation) (x y : Register)
  | setIndex (target : Address)
  | jumpFrom (base : Address)
  | random (x : Register) (mask : Fin 256)
  | draw (x y : Register) (rows : Fin 16)
  | skipPressed (x : Register)
  | skipReleased (x : Register)
  | readDelay (x : Register)
  | awaitKey (x : Register)
  | setDelay (x : Register)
  | setSound (x : Register)
  | addIndex (x : Register)
  | findGlyph (x : Register)
  | storeDigits (x : Register)
  | storeRegisters (x : Register)
  | loadRegisters (x : Register)
  deriving DecidableEq, Repr

namespace Instruction

/-- The sixteen low bits of a number. -/
def lowWord (word : Int) : Nat := (word % 0x10000).toNat

/-- Four bits from the bit `shift` on. -/
def nibble (bits shift : Nat) : Fin 16 :=
  ⟨bits / Nat.pow 2 shift % 16, Nat.mod_lt _ (by decide)⟩

def family (word : Int) : Fin 16 := nibble (lowWord word) 12

def xOf (word : Int) : Register := nibble (lowWord word) 8

def yOf (word : Int) : Register := nibble (lowWord word) 4

def lastNibble (word : Int) : Fin 16 := nibble (lowWord word) 0

def lowByte (word : Int) : Fin 256 := ⟨lowWord word % 256, Nat.mod_lt _ (by decide)⟩

def addressOf (word : Int) : Address := ⟨lowWord word % 4096, Nat.mod_lt _ (by decide)⟩

/-- The words of the first family are compared as whole numbers. -/
def ofSystemWord (word : Int) : Instruction :=
  if word == 0x00e0 then .clearScreen
  else if word == 0x00ee then .leave
  else if word == 0 then .stop
  else .callNative word

def operation? (number : Nat) : Option Operation :=
  match number with
  | 0x0 => some .copy
  | 0x1 => some .or
  | 0x2 => some .and
  | 0x3 => some .xor
  | 0x4 => some .add
  | 0x5 => some .subtract
  | 0x6 => some .halve
  | 0x7 => some .subtractFrom
  | 0xe => some .double
  | _ => none

def keyInstruction? (x : Register) (number : Nat) : Option Instruction :=
  match number with
  | 0x9e => some (.skipPressed x)
  | 0xa1 => some (.skipReleased x)
  | _ => none

def deviceInstruction? (x : Register) (number : Nat) : Option Instruction :=
  match number with
  | 0x07 => some (.readDelay x)
  | 0x0a => some (.awaitKey x)
  | 0x15 => some (.setDelay x)
  | 0x18 => some (.setSound x)
  | 0x1e => some (.addIndex x)
  | 0x29 => some (.findGlyph x)
  | 0x33 => some (.storeDigits x)
  | 0x55 => some (.storeRegisters x)
  | 0x65 => some (.loadRegisters x)
  | _ => none

/-- The instruction of a word, if it has one. The last four bits of the words that compare two
registers have no meaning. -/
def decode (word : Int) : Option Instruction :=
  match (family word).val with
  | 0x0 => some (ofSystemWord word)
  | 0x1 => some (.jump (addressOf word))
  | 0x2 => some (.call (addressOf word))
  | 0x3 => some (.skipEqual (xOf word) (lowByte word))
  | 0x4 => some (.skipUnequal (xOf word) (lowByte word))
  | 0x5 => some (.skipSame (xOf word) (yOf word))
  | 0x6 => some (.put (xOf word) (lowByte word))
  | 0x7 => some (.add (xOf word) (lowByte word))
  | 0x8 => (operation? (lastNibble word).val).map fun operation =>
      .combine operation (xOf word) (yOf word)
  | 0x9 => some (.skipDifferent (xOf word) (yOf word))
  | 0xa => some (.setIndex (addressOf word))
  | 0xb => some (.jumpFrom (addressOf word))
  | 0xc => some (.random (xOf word) (lowByte word))
  | 0xd => some (.draw (xOf word) (yOf word) (lastNibble word))
  | 0xe => keyInstruction? (xOf word) (lowByte word).val
  | _ => deviceInstruction? (xOf word) (lowByte word).val

end Instruction

end ChipEight
