/-
This file holds the source of random bytes. A seed is mixed into a pool of four words, which gives
the state and the increment of a linear generator on 128 bits. Each step yields 64 bits, by a
rotation of the folded state, and each half of them, the low one first, yields its top byte.
-/

namespace ChipEight

/-- The state and the increment of the generator, and the half word that is still to be used. -/
structure RandomBytes where
  state : BitVec 128
  increment : BitVec 128
  spare : Option UInt32
  deriving DecidableEq

namespace RandomBytes

/-- The words of a seed, the lowest first. -/
def seedWords (seed : Nat) : List UInt32 :=
  if seed < 0x100000000 then [UInt32.ofNat seed]
  else UInt32.ofNat (seed % 0x100000000) :: seedWords (seed / 0x100000000)
termination_by seed

/-- A word and the multiplier that goes with it, as they pass through the mixing. -/
structure Mixing where
  pool : Vector UInt32 4
  constant : UInt32

def fold (word : UInt32) : UInt32 := word ^^^ (word >>> 16)

/-- The scrambled word and the next constant. -/
def scramble (factor constant word : UInt32) : UInt32 × UInt32 :=
  let next := constant * factor
  (fold ((word ^^^ constant) * next), next)

def combine (first second : UInt32) : UInt32 :=
  fold (first * 0xca01f9dd - second * 0x4973f715)

/-- The word is scrambled and put into one place of the pool. -/
def Mixing.fill (mixing : Mixing) (place : Fin 4) (word : UInt32) : Mixing :=
  let (scrambled, next) := scramble 0x931e8875 mixing.constant word
  ⟨mixing.pool.set place scrambled, next⟩

/-- The word is scrambled and combined with one place of the pool. -/
def Mixing.blend (mixing : Mixing) (place : Fin 4) (word : UInt32) : Mixing :=
  let (scrambled, next) := scramble 0x931e8875 mixing.constant word
  ⟨mixing.pool.set place (combine mixing.pool[place] scrambled), next⟩

/-- Each place of the pool is blended into each other one. -/
def Mixing.stir (mixing : Mixing) : Mixing :=
  (List.finRange 4).foldl
    (fun outer source =>
      ((List.finRange 4).filter fun target => target != source).foldl
        (fun inner target => inner.blend target inner.pool[source]) outer)
    mixing

/-- The pool that the words of a seed give; words that are missing count as zero. -/
def pool (words : List UInt32) : Vector UInt32 4 :=
  let filled := (List.finRange 4).foldl
    (fun mixing place => mixing.fill place ((words[place.val]?).getD 0))
    (Mixing.mk (Vector.replicate 4 0) 0x43b0d7e5)
  let blended := (words.drop 4).foldl
    (fun mixing word => (List.finRange 4).foldl (fun inner place => inner.blend place word) mixing)
    filled.stir
  blended.pool

/-- Words drawn from the pool, place after place. -/
def drawWords (source : Vector UInt32 4) (constant : UInt32) : Nat → Nat → List UInt32
  | _, 0 => []
  | index, count + 1 =>
      let (word, next) := scramble 0x58f38ded constant source[index % 4]
      word :: drawWords source next (index + 1) count

/-- Two words as one, the low one first. -/
def pairWords : List UInt32 → List (BitVec 64)
  | low :: high :: rest => (high.toBitVec ++ low.toBitVec) :: pairWords rest
  | _ => []

def factor : BitVec 128 := 47026247687942121848144207491837523525

def step (source : RandomBytes) : RandomBytes :=
  { source with state := source.state * factor + source.increment }

/-- The generator of the words of a seed. -/
def ofWords (words : List UInt32) : RandomBytes :=
  match pairWords (drawWords (pool words) 0x8b51f9dd 0 8) with
  | [first, second, third, fourth] =>
      let increment := ((third ++ fourth) <<< 1) ||| 1
      let started := (RandomBytes.mk 0 increment none).step
      step { started with state := started.state + (first ++ second) }
  | _ => ⟨0, 1, none⟩

/-- The generator of a seed. -/
def ofSeed (seed : Nat) : RandomBytes := ofWords (seedWords seed)

/-- The sixty-four bits that a state yields. -/
def output (state : BitVec 128) : BitVec 64 :=
  let folded := state.extractLsb' 64 64 ^^^ state.extractLsb' 0 64
  folded.rotateRight (state >>> 122).toNat

def topByte (word : UInt32) : UInt8 :=
  (word >>> 24).toUInt8

/-- The next byte, and the generator after it. -/
def next (source : RandomBytes) : UInt8 × RandomBytes :=
  match source.spare with
  | some word => (topByte word, { source with spare := none })
  | none =>
      let stepped := source.step
      let bits := output stepped.state
      let low := UInt32.ofBitVec (bits.extractLsb' 0 32)
      let high := UInt32.ofBitVec (bits.extractLsb' 32 32)
      (topByte low, { stepped with spare := some high })

end RandomBytes

end ChipEight
