/-
This file says which words a machine rejects as no instruction: those of no documented opcode, except
for comparisons of two registers, which it performs whatever their last digit is.
-/

import ChipEight.Proofs.Instruction.Opcode
import ChipEight.Proofs.Machine.Events
import ChipEight.Proofs.Run

namespace ChipEight.Machine

open Instruction (Spells)

/-- The word is rejected as no instruction: one complaint is made and counted, which is about
decoding, and nothing else changes. -/
structure Unknown (machine : Machine) (word : Int) : Prop where
  rejected : (machine.perform word).result = .ok .rejected
  complaint : ∃ complaint, (machine.perform word).events = [.complaint complaint machine.position] ∧
    complaint.category = .decode
  counted : (machine.perform word).machine = { machine with
    errors := machine.errors + 1
    tally := { machine.tally with decode := machine.tally.decode + 1 } }

/-- A word is performed as the instruction that it spells, or rejected if it spells none. -/
theorem perform_cases (machine : Machine) (word : Int) :
    (∃ instruction, Spells word instruction ∧
      machine.perform word = machine.execute instruction) ∨
    ((∀ instruction, ¬ Spells word instruction) ∧
      machine.perform word = machine.reject (.unknownWord word)) := by
  unfold perform
  split
  case h_1 instruction decoded =>
    exact .inl ⟨instruction, Instruction.decode_spells decoded, rfl⟩
  case h_2 undecoded =>
    refine .inr ⟨?_, rfl⟩
    intro instruction spells
    rw [spells.decoded] at undecoded
    cases undecoded

/-- A word that spells an instruction is performed as that. -/
theorem perform_spelled (machine : Machine) {word : Int} {instruction : Instruction}
    (spells : Spells word instruction) : machine.perform word = machine.execute instruction := by
  unfold perform
  rw [spells.decoded]

/-- An instruction may be rejected too, but not for its word. -/
theorem unknown_iff_unspelled (machine : Machine) (word : Int) :
    machine.Unknown word ↔ ¬ ∃ instruction, Spells word instruction := by
  rcases machine.perform_cases word with ⟨instruction, spells, goes⟩ | ⟨unspelled, goes⟩
  · have known : ¬ machine.Unknown word := by
      intro unknown
      obtain ⟨complaint, made, decoding⟩ := unknown.complaint
      rw [goes] at made
      have usual := machine.execute_events instruction
      rw [made] at usual
      exact usual _ (List.mem_singleton_self _) decoding
    exact iff_of_false known (not_not_intro ⟨instruction, spells⟩)
  · have unknown : machine.Unknown word := by
      refine ⟨?_, ?_, ?_⟩
      · rw [goes]
        rfl
      · rw [goes]
        exact ⟨_, rfl, rfl⟩
      · rw [goes]
        rfl
    exact iff_of_true unknown (not_exists.mpr unspelled)

/-- Rejected as no instruction are the words of no documented opcode, and among those not the
comparisons of two registers. -/
theorem unknown_iff (machine : Machine) (word : Int) :
    machine.Unknown word ↔
      ¬ Opcode.Listed Opcode.documented word ∧ ¬ Opcode.Listed [.family 0x5, .family 0x9] word := by
  rw [unknown_iff_unspelled, Instruction.spells_iff, not_or]

/-- Not all words of no documented opcode are rejected: a new machine performs the comparison of a
register with itself whose last digit is one. -/
theorem not_unknown_comparison :
    ¬ ∀ machine, Reachable machine → ∀ word : Int, 0 ≤ word → word < 0x10000 →
      (machine.Unknown word ↔ ¬ Opcode.Listed Opcode.documented word) := by
  intro exact_table
  have reached : Reachable (.new (.blank 8 4) (.ofSeed 12345)) := .new _ _ (by decide) (by decide)
  have undocumented : ¬ Opcode.Listed Opcode.documented 0x5001 := by decide
  have unknown := (exact_table _ reached 0x5001 (by decide) (by decide)).mpr undocumented
  have performed : ((Machine.new (.blank 8 4) (.ofSeed 12345)).perform 0x5001).result =
      .ok .applied := rfl
  exact absurd (performed.symm.trans unknown.rejected) nofun

end ChipEight.Machine
