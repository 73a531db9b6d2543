/-
This file goes through a cycle: the counter is put right or a word is fetched and performed, the
timers tick, and the errors are counted.
-/

import ChipEight.Machine.Cycle
import ChipEight.Proofs.Machine.Transfer
import ChipEight.Proofs.Memory.Program

namespace ChipEight.Machine

variable {machine : Machine}

/-- The counter is complained of unless it is an address of the program area. -/
theorem counterComplaint?_eq_none_iff (machine : Machine) :
    machine.counterComplaint? = none ↔ isProgramAddress machine.counter = true := by
  have start : Memory.programStart = 0x200 := rfl
  have stop : Memory.size = 0x1000 := rfl
  rw [isProgramAddress_iff]
  unfold counterComplaint?
  split
  case isTrue outside => simp only [reduceCtorEq, false_iff]; omega
  case isFalse inside =>
    split
    case isTrue odd => simp only [reduceCtorEq, false_iff]; omega
    case isFalse even => simp only [true_iff]; omega

theorem correctedCounter_inside (machine : Machine) :
    isProgramAddress machine.correctedCounter = true := by
  have start : Memory.programStart = 0x200 := rfl
  have stop : Memory.size = 0x1000 := rfl
  rw [isProgramAddress_iff]
  unfold correctedCounter
  split <;> omega

theorem counterComplaint?_category {complaint : Complaint}
    (found : machine.counterComplaint? = some complaint) : complaint.category = .structural := by
  unfold counterComplaint? at found
  split at found
  · cases found; rfl
  · split at found
    · cases found; rfl
    · cases found

/-- Of an even counter it is complained only where it lies outside. -/
theorem counterComplaint?_even {complaint : Complaint} (even : machine.counter % 2 = 0)
    (found : machine.counterComplaint? = some complaint) :
    complaint = .counterOutside machine.counter := by
  unfold counterComplaint? at found
  split at found
  · cases found; rfl
  · rw [if_neg (by omega)] at found
    cases found

/-- The errors are checked at the end of a cycle, and only the halt flag may change. -/
theorem checkErrors_machine (machine : Machine) :
    machine.checkErrors.machine =
      { machine with halted := machine.halted || haltThreshold ≤ machine.errors } := by
  unfold checkErrors
  split
  case isTrue stops =>
    have reached := (Bool.and_eq_true _ _ ▸ stops).2
    simp only [reached, Bool.or_true]
  case isFalse goes =>
    have same : (machine.halted || decide (haltThreshold ≤ machine.errors)) = machine.halted := by
      revert goes
      cases machine.halted <;> simp
    rw [same]

/-- Few errors do not halt the machine. -/
theorem checkErrors_few (few : machine.errors < haltThreshold) :
    machine.checkErrors.machine = machine := by
  have below : decide (haltThreshold ≤ machine.errors) = false :=
    decide_eq_false (Int.not_le.mpr few)
  unfold checkErrors
  rw [below, Bool.and_false]
  rfl

theorem checkErrors_inside (machine : Machine) :
    ∀ event ∈ machine.checkErrors.events, ¬ event.IsStray := by
  intro event member
  unfold checkErrors at member
  split at member
  · rw [List.mem_singleton.mp member]
    exact id
  · cases member

theorem checkErrors_wellFormed (valid : machine.WellFormed) :
    machine.checkErrors.machine.WellFormed := by
  rw [checkErrors_machine]
  exact { valid with }

theorem tick_wellFormed (valid : machine.WellFormed) : machine.tick.WellFormed := by
  obtain ⟨delayLow, delayHigh⟩ := valid.delay
  obtain ⟨soundLow, soundHigh⟩ := valid.sound
  refine { valid with delay := ?_, sound := ?_ }
  · simp only [tick, IsByte]
    split <;> omega
  · simp only [tick, IsByte]
    split <;> omega

/-- The word at an address, its high byte first. -/
def wordAt (memory : Memory) (place : Int) : Int :=
  256 * (memory.byteAt place).toNat + (memory.byteAt (place + 1)).toNat

/-- A word depends on the bytes only. -/
theorem wordAt_congr {first second : Memory} (same : first.bytes = second.bytes) (place : Int) :
    wordAt first place = wordAt second place := by
  unfold wordAt
  rw [Memory.byteAt_congr same, Memory.byteAt_congr same]

/-- The words of a program that is loaded are found where it begins. -/
theorem wordAt_withProgram (memory : Memory) {program : List UInt8}
    (fits : program.length ≤ Memory.largestProgram) {offset : Nat}
    (inside : offset + 1 < program.length) :
    wordAt (memory.withProgram program) (Memory.programStart + offset : Nat) =
      256 * program[offset].toNat + program[offset + 1].toNat := by
  have next : ((Memory.programStart + offset : Nat) : Int) + 1 =
      (Memory.programStart + (offset + 1) : Nat) := by omega
  unfold wordAt
  rw [next, Memory.withProgram_byteAt memory fits inside,
    Memory.withProgram_byteAt memory fits (Nat.lt_of_succ_lt inside)]

/-- A counter in order lets the word at it be fetched, and moves past it. -/
theorem fetch_inside (allowed : isProgramAddress machine.counter = true) :
    ∃ (memory : Memory) (notes : List Memory.Note), machine.fetch =
        ⟨{ machine with memory := memory, counter := machine.counter + 2 },
          wordAt machine.memory machine.counter, notes.map .memory⟩ ∧
      memory.bytes = machine.memory.bytes ∧ ∀ note ∈ notes, ¬ note.IsOutside := by
  obtain ⟨low, high, even⟩ := (isProgramAddress_iff _).mp allowed
  have room : machine.counter + 1 < Memory.size := by simp only [Memory.size]; omega
  have firstBytes := machine.memory.read_bytes machine.counter
  have word : wordAt machine.memory machine.counter =
      256 * (machine.memory.read machine.counter).value.toNat +
        ((machine.memory.read machine.counter).memory.read (machine.counter + 1)).value.toNat := by
    rw [Memory.read_value, Memory.read_value, Memory.byteAt_congr firstBytes]
    rfl
  unfold fetch
  rw [if_neg (by omega), word]
  refine ⟨_, _, rfl, (Memory.read_bytes _ _).trans firstBytes, ?_⟩
  intro note member
  rcases List.mem_append.mp member with first | second
  · exact Memory.read_inside _ ⟨by omega, by omega⟩ note first
  · exact Memory.read_inside _ ⟨by omega, room⟩ note second

theorem fetch_word (machine : Machine) (allowed : isProgramAddress machine.counter = true) :
    machine.fetch.result = wordAt machine.memory machine.counter := by
  obtain ⟨memory, notes, fetched, -, -⟩ := fetch_inside allowed
  rw [fetched]

/-- A machine that is about to perform the word at its counter. -/
def loaded (machine : Machine) : Machine :=
  { machine.fetch.machine with last := machine.fetch.result }

/-- What the word at the counter does. -/
def performed (machine : Machine) : Performed :=
  machine.loaded.perform machine.fetch.result

/-- Where the counter is in order, only the access count of the memory, the counter and the last word
change before the word is performed. -/
theorem loaded_eq (machine : Machine) (allowed : isProgramAddress machine.counter = true) :
    ∃ (memory : Memory) (notes : List Memory.Note), memory.bytes = machine.memory.bytes ∧
      (∀ note ∈ notes, ¬ note.IsOutside) ∧ machine.fetch.events = notes.map .memory ∧
      machine.loaded = { machine with
        memory := memory
        counter := machine.counter + 2
        last := wordAt machine.memory machine.counter } := by
  obtain ⟨memory, notes, fetched, same, inside⟩ := fetch_inside allowed
  refine ⟨memory, notes, same, inside, ?_, ?_⟩
  · rw [fetched]
  · unfold loaded
    rw [fetched]

/-- A cycle with its counter in order ends with the fault of its word, or with a tick of the timers
and a check of the errors. -/
theorem advance_cases (machine : Machine) :
    (∃ fault, machine.performed.result = .error fault ∧ machine.advance =
      ⟨machine.performed.machine, .error fault,
        machine.fetch.events ++ machine.performed.events⟩) ∨
    ∃ status place word, machine.performed.result = .ok status ∧ machine.advance =
      ⟨machine.performed.machine.tick.checkErrors.machine, .ok (),
        machine.fetch.events ++ machine.performed.events ++ .executed place word status ::
          machine.performed.machine.tick.checkErrors.events⟩ := by
  unfold advance
  dsimp only
  split
  case h_1 fault ends => exact .inl ⟨fault, ends, rfl⟩
  case h_2 status ends => exact .inr ⟨status, _, _, ends, rfl⟩

/-- A cycle that puts the counter right does nothing else than to count its complaint. -/
theorem correct_machine (machine : Machine) (complaint : Complaint) :
    (machine.correct complaint).machine = { machine.blame complaint with
      counter := machine.correctedCounter
      halted := machine.halted || haltThreshold ≤ machine.errors + 1 } := by
  unfold correct
  dsimp only
  rw [checkErrors_machine]
  rfl

/-- A cycle that puts the counter right, whatever it was. -/
theorem correct_wellFormed (valid : machine.WellFormed) (counter : Int) (complaint : Complaint) :
    ({ machine with counter := counter }.correct complaint).machine.WellFormed := by
  obtain ⟨low, high, even⟩ :=
    (isProgramAddress_iff _).mp (correctedCounter_inside { machine with counter := counter })
  rw [correct_machine]
  exact { valid with counter := ⟨low, by dsimp only; omega, even⟩ }

/-- With the counter in order its word is performed on a well-formed machine. -/
theorem performed_orderly (valid : machine.WellFormed)
    (allowed : isProgramAddress machine.counter = true) :
    machine.loaded.Orderly machine.performed := by
  obtain ⟨low, high, even⟩ := (isProgramAddress_iff _).mp allowed
  obtain ⟨memory, notes, -, -, -, loads⟩ := machine.loaded_eq allowed
  have past : IsReturnAddress (machine.counter + 2) := ⟨by omega, by omega, by omega⟩
  have ready : machine.loaded.WellFormed := by
    rw [loads]
    exact { valid with counter := past.fits }
  exact perform_orderly ready (by rw [loads]; exact past) machine.fetch.result

theorem advance_orderly (valid : machine.WellFormed)
    (allowed : isProgramAddress machine.counter = true) : machine.Orderly machine.advance := by
  obtain ⟨memory, notes, -, fetchedInside, noted, loads⟩ := machine.loaded_eq allowed
  obtain ⟨after, size, ⟨value, returns⟩, inside⟩ := performed_orderly valid allowed
  have sameSize : machine.performed.machine.display.SameSize machine.display :=
    size.trans (by rw [loads]; exact .refl _)
  rcases machine.advance_cases with ⟨fault, ends, -⟩ | ⟨status, place, word, -, goes⟩
  · exact absurd (returns.symm.trans ends) nofun
  · rw [goes]
    refine ⟨checkErrors_wellFormed (tick_wellFormed after), ?_, ⟨(), rfl⟩, ?_⟩
    · dsimp only
      rw [checkErrors_machine]
      exact sameSize
    · intro event member
      rw [noted] at member
      simp only [List.mem_append, List.mem_cons] at member
      rcases member with (early | middle) | rfl | late
      · exact notes_inside fetchedInside event early
      · exact inside event middle
      · exact id
      · exact checkErrors_inside _ event late

/-- A machine at the start of a cycle that is counted. -/
def begun (machine : Machine) : Machine :=
  { machine with
    tone := false
    cycles := machine.cycles + 1 }

/-- A cycle of a machine that is halted, that is to be halted, whose counter is out of order, or that
fetches a word. -/
theorem cycle_cases (machine : Machine) :
    (machine.halted = true ∧ machine.cycle = ⟨{ machine with tone := false }, .ok (), []⟩) ∨
    (machine.halted = false ∧ haltThreshold ≤ machine.errors ∧
      machine.cycle = ⟨{ machine with tone := false, halted := true }, .ok (),
        [.halted (.tooManyErrors machine.errors)]⟩) ∨
    (machine.halted = false ∧ machine.errors < haltThreshold ∧
      ∃ complaint, machine.counterComplaint? = some complaint ∧
        machine.cycle = machine.begun.correct complaint) ∨
    (machine.halted = false ∧ machine.errors < haltThreshold ∧
      isProgramAddress machine.counter = true ∧ machine.cycle = machine.begun.advance) := by
  unfold cycle
  dsimp only
  split
  case isTrue stopped => exact .inl ⟨stopped, rfl⟩
  case isFalse runs =>
    have awake : machine.halted = false := by simpa using runs
    right
    split
    case isTrue reached => exact .inl ⟨awake, reached, rfl⟩
    case isFalse few =>
      right
      have below : machine.errors < haltThreshold := Int.not_le.mp few
      split
      case h_1 complaint found => exact .inl ⟨awake, below, complaint, found, rfl⟩
      case h_2 none =>
        exact .inr ⟨awake, below, (counterComplaint?_eq_none_iff machine).mp none, rfl⟩

/-- A cycle of a machine that runs puts the counter right or fetches a word. -/
theorem cycle_awake (awake : machine.halted = false) (few : machine.errors < haltThreshold) :
    machine.cycle = match machine.counterComplaint? with
      | some complaint => machine.begun.correct complaint
      | none => machine.begun.advance := by
  have runs : ¬ machine.halted = true := Bool.eq_false_iff.mp awake
  exact (if_neg runs).trans (if_neg (Int.not_le.mpr few))

/-- Every cycle of a well-formed machine is orderly. -/
theorem cycle_orderly (valid : machine.WellFormed) : machine.Orderly machine.cycle := by
  have begins : machine.begun.WellFormed := { valid with }
  rcases machine.cycle_cases with ⟨-, goes⟩ | ⟨-, -, goes⟩ | ⟨-, -, complaint, found, goes⟩ |
    ⟨-, -, allowed, goes⟩
  · rw [goes]
    exact ⟨{ valid with }, .refl _, ⟨(), rfl⟩, by intro event member; cases member⟩
  · rw [goes]
    refine ⟨{ valid with }, .refl _, ⟨(), rfl⟩, ?_⟩
    intro event member
    rw [List.mem_singleton.mp member]
    exact id
  · rw [goes]
    refine ⟨correct_wellFormed begins machine.counter complaint, ?_, ⟨(), rfl⟩, ?_⟩
    · rw [correct_machine]
      exact .refl _
    · intro event member
      rcases List.mem_cons.mp member with rfl | late
      · rw [counterComplaint?_even valid.counter.2.2 found]
        exact id
      · exact checkErrors_inside _ event late
  · rw [goes]
    have ran := advance_orderly begins allowed
    exact ⟨ran.wellFormed, ran.size, ran.returns, ran.inside⟩

end ChipEight.Machine
