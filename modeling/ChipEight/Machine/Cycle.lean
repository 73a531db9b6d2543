/-
This file runs cycles: the counter is checked, an instruction word is fetched and performed, and the
timers tick. A cycle whose counter has to be put right does nothing else.
-/

import ChipEight.Machine.Execute

namespace ChipEight.Machine

/-- Outside the program area the counter goes to its start, and from an odd address one down. -/
def counterComplaint? (machine : Machine) : Option Complaint :=
  if machine.counter < Memory.programStart ∨ Memory.size ≤ machine.counter then
    some (.counterOutside machine.counter)
  else if machine.counter % 2 ≠ 0 then some (.counterOdd machine.counter)
  else none

def correctedCounter (machine : Machine) : Int :=
  if machine.counter < Memory.programStart ∨ Memory.size ≤ machine.counter then
    Memory.programStart
  else machine.counter - machine.counter % 2

/-- The word that stands in for one that cannot be fetched. -/
def fallbackWord : Int := 0x1200

/-- The word at the counter, which moves past it. A word that is not wholly in memory is a complaint
and halts the machine. -/
def fetch (machine : Machine) : Outcome Int :=
  if Memory.size ≤ machine.counter + 1 then
    let complaint := Complaint.fetchOutside machine.counter
    ⟨{ machine.blame complaint with halted := true }, fallbackWord,
      [.complaint complaint machine.position, .halted .fetchOutside]⟩
  else
    let high := machine.memory.read machine.counter
    let low := high.memory.read (machine.counter + 1)
    ⟨{ machine with memory := low.memory, counter := machine.counter + 2 },
      256 * high.value.toNat + low.value.toNat, (high.notes ++ low.notes).map .memory⟩

/-- The tone sounds as long as the sound timer runs. -/
def tick (machine : Machine) : Machine :=
  { machine with
    delay := if 0 < machine.delay then machine.delay - 1 else machine.delay
    tone := 0 < machine.sound
    sound := if 0 < machine.sound then machine.sound - 1 else machine.sound }

/-- The machine is halted if it has had too many complaints. -/
def checkErrors (machine : Machine) : Outcome Unit :=
  if !machine.halted && haltThreshold ≤ machine.errors then
    ⟨{ machine with halted := true }, (), [.halted (.tooManyErrors machine.errors)]⟩
  else ⟨machine, (), []⟩

/-- A cycle that only puts the counter right. -/
def correct (machine : Machine) (complaint : Complaint) : Outcome (Except Fault Unit) :=
  let corrected := { machine.blame complaint with counter := machine.correctedCounter }
  let checked := corrected.checkErrors
  ⟨checked.machine, .ok (), .complaint complaint machine.position :: checked.events⟩

/-- A cycle whose counter is in order. -/
def advance (machine : Machine) : Outcome (Except Fault Unit) :=
  let fetched := machine.fetch
  let word := fetched.result
  let performed := { fetched.machine with last := word }.perform word
  match performed.result with
  | .error fault => ⟨performed.machine, .error fault, fetched.events ++ performed.events⟩
  | .ok status =>
      let executed := Event.executed (performed.machine.counter - 2) word status
      let checked := performed.machine.tick.checkErrors
      ⟨checked.machine, .ok (),
        fetched.events ++ performed.events ++ executed :: checked.events⟩

/-- One cycle. A halted machine only stops its tone. -/
def cycle (machine : Machine) : Outcome (Except Fault Unit) :=
  let silent := { machine with tone := false }
  if machine.halted then ⟨silent, .ok (), []⟩
  else if haltThreshold ≤ machine.errors then
    ⟨{ silent with halted := true }, .ok (), [.halted (.tooManyErrors machine.errors)]⟩
  else
    let counted := { silent with cycles := machine.cycles + 1 }
    match counted.counterComplaint? with
    | some complaint => counted.correct complaint
    | none => counted.advance

end ChipEight.Machine
