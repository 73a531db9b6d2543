/-
This file shows that a machine that a host can get never goes astray in its next cycle: there is no
fault, and no access to a place that does not exist. Even a counter that somebody set to any number is
put right or lies in order.
-/

import ChipEight.Proofs.Machine.Accounts
import ChipEight.Proofs.Machine.Invariant

namespace ChipEight

namespace Complaint

/-- The words that a complaint begins with. -/
def lead : Complaint → String
  | counterOutside _ => "PC out of program area: 0x"
  | counterOdd _ => "Odd PC: 0x"
  | fetchOutside _ => "Fetch past end of memory at 0x"
  | unknownWord _ => "Unknown instruction "
  | jumpTarget _ => "Invalid jump target 0x"
  | callTarget _ => "Invalid call target 0x"
  | stackFull => "Stack overflow on call"
  | jumpSum _ _ => "Invalid jump V0+nnn: V0="
  | spriteOutside _ _ => "Sprite read past end of memory: I=0x"
  | digitsOutside _ => "BCD store past end of memory: I=0x"
  | storeOutside _ _ => "Register store past end of memory: I=0x"
  | loadOutside _ _ => "Register load past end of memory: I=0x"

theorem text_lead (complaint : Complaint) : complaint.lead.toList <+: complaint.text.toList := by
  cases complaint with
  | stackFull => exact List.prefix_rfl
  | _ =>
      unfold text lead
      dsimp only
      repeat rw [String.append_assoc]
      rw [String.toList_append]
      exact List.prefix_append _ _

/-- A text that differs from the first words of a complaint does not begin the complaint. -/
theorem text_apart {complaint : Complaint} {wanted : String}
    (apart : ¬ (wanted.toList <+: complaint.lead.toList ∨ complaint.lead.toList <+: wanted.toList)) :
    ¬ wanted.toList <+: complaint.text.toList := by
  intro begins
  exact apart (List.prefix_or_prefix_of_prefix begins complaint.text_lead)

/-- There is no complaint of a register or of an index, because words name only those there are. -/
theorem text_usual (complaint : Complaint) :
    ¬ "Invalid register".toList <+: complaint.text.toList ∧
      ¬ "Index out of range".toList <+: complaint.text.toList := by
  constructor
  · apply text_apart
    cases complaint <;> simp only [lead] <;> decide
  · apply text_apart
    cases complaint <;> simp only [lead] <;> decide

end Complaint

namespace Memory

/-- There is a cell for an address and for each one behind it, up to the last. -/
def HasCells (place : Int) (last : Nat) : Prop :=
  ∀ offset : Nat, offset ≤ last → (cell? (place + offset)).isSome = true

theorem hasCells {place : Int} {last : Nat} (low : 0 ≤ place) (high : place + last < size) :
    HasCells place last := by
  intro offset near
  unfold cell?
  rw [dif_pos ⟨by omega, by omega⟩]
  rfl

end Memory

/-- The slots, keys, addresses, pixels and registers that an instruction uses exist, as soon as its
own tests let it use them: `Machine.leave` and `Machine.call` find their slot of the stack, `Machine.skipKey` its key,
`Machine.draw` its bytes and pixels, and what is stored or loaded has a cell for each byte. All other instructions use
no more than registers, of which a word names only the sixteen. -/
def Instruction.StaysInside (machine : Machine) : Instruction → Prop
  | .leave => machine.depth ≠ 0 → ∃ slot : Fin Machine.stackSize, (slot.val : Int) = machine.depth - 1 ∧
      Slice.index Machine.stackSize (machine.depth - 1) .listItem = .ok slot
  | .call _ => machine.depth < Machine.stackSize → ∃ slot : Fin Machine.stackSize, (slot.val : Int) = machine.depth ∧
      Slice.index Machine.stackSize machine.depth .listPlace = .ok slot
  | .draw x y rows => machine.index + rows.val ≤ Memory.size → Memory.fits machine.index rows.val = true ∧
      ∀ sprite, ∀ cell ∈ Display.cells machine.display.width machine.display.height
        (machine.register x) (machine.register y) sprite,
        cell.x < machine.display.width ∧ cell.y < machine.display.height
  | .skipPressed x => machine.register x ≤ 15 → (Keypad.key? (machine.register x)).isSome = true
  | .skipReleased x => machine.register x ≤ 15 → (Keypad.key? (machine.register x)).isSome = true
  | .storeDigits _ => machine.index + 2 < Memory.size → Memory.HasCells machine.index 2
  | .storeRegisters last => machine.index + last.val < Memory.size → Memory.HasCells machine.index last.val
  | .loadRegisters last => machine.index + last.val < Memory.size → Memory.HasCells machine.index last.val ∧
      (machine.memory.readEach machine.index (last.val + 1)).value.length ≤ 16
  | _ => True

namespace Machine

variable {machine : Machine}

theorem WellFormed.key?_isSome (valid : machine.WellFormed) {x : Register} (small : machine.register x ≤ 15) :
    (Keypad.key? (machine.register x)).isSome = true := by
  have low : 0 ≤ machine.register x := (valid.registers x).1
  unfold Keypad.key?
  rw [dif_pos ⟨low, by omega⟩]
  rfl

theorem WellFormed.staysInside (valid : machine.WellFormed) (instruction : Instruction) :
    instruction.StaysInside machine := by
  obtain ⟨shallow, deep⟩ := valid.depth
  have low : 0 ≤ machine.index := valid.index.1
  cases instruction with
  | leave =>
      intro nonempty
      exact slot_inside (by omega) (by omega) _
  | call target => exact fun below => slot_inside shallow below _
  | draw x y rows =>
      intro inside
      refine ⟨?_, fun sprite => Display.cells_inside valid.wide valid.high _ _ sprite⟩
      unfold Memory.fits
      rw [Bool.and_eq_true, decide_eq_true_iff, decide_eq_true_iff]
      exact ⟨low, inside⟩
  | skipPressed x => exact valid.key?_isSome
  | skipReleased x => exact valid.key?_isSome
  | storeDigits x => exact Memory.hasCells low
  | storeRegisters last => exact Memory.hasCells low
  | loadRegisters last =>
      intro inside
      refine ⟨Memory.hasCells low inside, ?_⟩
      rw [Memory.readEach_length]
      omega
  | _ => trivial

/-- No word changes which word was fetched last. -/
theorem Verdict.last {performed : Performed} (verdict : machine.Verdict performed) :
    performed.machine.last = machine.last := by
  cases verdict with
  | rejected complaint whole => rw [whole]; rfl
  | ignored event quiet whole => rw [whole]; rfl
  | accepted accepts => exact accepts.counts.last

theorem advance_last (machine : Machine) (allowed : isProgramAddress machine.counter = true) :
    machine.advance.machine.last = wordAt machine.memory machine.counter := by
  obtain ⟨memory, notes, -, -, -, loads⟩ := machine.loaded_eq allowed
  have kept : machine.performed.machine.last = wordAt machine.memory machine.counter := by
    rw [← show machine.loaded.last = wordAt machine.memory machine.counter by rw [loads]]
    exact (perform_verdict machine.loaded machine.fetch.result).last
  rcases machine.advance_cases with ⟨fault, -, goes⟩ | ⟨status, place, word, -, goes⟩
  · rw [goes]
    exact kept
  · rw [goes]
    dsimp only
    rw [checkErrors_machine]
    exact kept

/-- The counter was out of order: the cycle made one complaint, a structural one, and put the counter
right. -/
structure PutRight (machine : Machine) (outcome : Outcome (Except Fault Unit)) : Prop where
  once : ∃ complaint position, Event.complaints outcome.events = [(complaint, position)] ∧
    complaint.category = .structural
  errors : outcome.machine.errors = machine.errors + 1
  tally : outcome.machine.tally = { machine.tally with structural := machine.tally.structural + 1 }
  counter : 0x200 ≤ outcome.machine.counter ∧ outcome.machine.counter < 0x1000 ∧
    outcome.machine.counter % 2 = 0

/-- Two bytes inside the memory were fetched, and their word was performed without a stray access. -/
structure Fetched (machine : Machine) (outcome : Outcome (Except Fault Unit)) : Prop where
  inside : 0x200 ≤ machine.counter ∧ machine.counter + 1 < 0x1000
  word : outcome.machine.last = wordAt machine.memory machine.counter
  usual : ∀ event ∈ outcome.events, ¬ event.IsStray

theorem correct_putRight (machine : Machine) {complaint : Complaint}
    (found : machine.counterComplaint? = some complaint) :
    machine.PutRight (machine.begun.correct complaint) := by
  have structural := counterComplaint?_category found
  have calm := checkErrors_complaints
    { machine.begun.blame complaint with counter := machine.correctedCounter }
  have right := (isProgramAddress_iff _).mp machine.correctedCounter_inside
  refine ⟨⟨complaint, machine.begun.position, ?_, structural⟩, ?_, ?_, ?_⟩
  · exact congrArg (List.cons (complaint, machine.begun.position)) calm
  · rw [correct_machine]
    rfl
  · rw [correct_machine]
    simp only [blame, begun, structural, Tally.count]
  · rw [correct_machine]
    exact right

/-- A machine whose counter is set to any number, and that is well formed but for the counter, puts
the counter right or fetches a word at it. -/
theorem cycle_anywhere (valid : machine.WellFormed) (awake : machine.halted = false)
    (few : machine.errors < haltThreshold) (counter : Int) :
    let moved := { machine with counter := counter }
    moved.cycle.result = .ok () ∧ (moved.PutRight moved.cycle ∨ moved.Fetched moved.cycle) := by
  intro moved
  rcases moved.cycle_cases with ⟨stopped, -⟩ | ⟨-, many, -⟩ | ⟨-, -, complaint, found, goes⟩ |
    ⟨-, -, allowed, goes⟩
  · exact absurd (awake.symm.trans stopped) Bool.false_ne_true
  · exact absurd many (Int.not_le.mpr few)
  · rw [goes]
    exact ⟨rfl, .inl (correct_putRight moved found)⟩
  · obtain ⟨low, high, even⟩ := (isProgramAddress_iff _).mp allowed
    have begins : moved.begun.WellFormed :=
      { valid with counter := ⟨low, by change counter ≤ _; change counter < _ at high; omega, even⟩ }
    obtain ⟨-, -, ⟨value, returns⟩, usual⟩ := advance_orderly begins allowed
    rw [goes]
    refine ⟨returns, .inr ⟨⟨low, ?_⟩, moved.begun.advance_last allowed, usual⟩⟩
    omega

/-- The next cycle of a machine that a host can get and that is not halted ends without a fault and
without a stray access, and makes no complaint of a register or of an index. With any other counter
it still ends without a fault: it puts the counter right, or fetches a word inside the memory. -/
theorem cycle_safe (reached : Reachable machine) (awake : machine.halted = false) :
    machine.cycle.result = .ok () ∧
    (∀ event ∈ machine.cycle.events, ¬ event.IsStray) ∧
    (∀ complaint position, .complaint complaint position ∈ machine.cycle.events →
      ¬ "Invalid register".toList <+: complaint.text.toList ∧
        ¬ "Index out of range".toList <+: complaint.text.toList) ∧
    (∀ instruction : Instruction, instruction.StaysInside machine) ∧
    ∀ counter : Int,
      let moved := { machine with counter := counter }
      moved.cycle.result = .ok () ∧ (moved.PutRight moved.cycle ∨ moved.Fetched moved.cycle) := by
  have valid := reached.wellFormed
  obtain ⟨-, -, ⟨value, returns⟩, usual⟩ := cycle_orderly valid
  refine ⟨returns, usual, ?_, valid.staysInside, ?_⟩
  · -- A word names no other registers, so no complaint has such a text, of whatever cycle it comes.
    intro complaint position _
    exact complaint.text_usual
  · exact cycle_anywhere valid awake (reached.accounted.below awake)

/-- A new machine runs its next cycle, and does so too with its counter below all addresses. -/
theorem cycle_safe_new :
    let machine := Machine.new (.blank 8 4) (.ofSeed 12345)
    Reachable machine ∧ machine.halted = false ∧ machine.cycle.result = .ok () ∧
      ({ machine with counter := -7 } : Machine).cycle.result = .ok () := by
  intro machine
  have reached : Reachable machine := .new _ _ (by decide) (by decide)
  have awake : machine.halted = false := rfl
  obtain ⟨returns, -, -, -, anywhere⟩ := cycle_safe reached awake
  exact ⟨reached, awake, returns, (anywhere (-7)).1⟩

end Machine

end ChipEight
