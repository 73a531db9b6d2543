/-
This file goes through the instructions that take keys, draw, and move bytes between the registers
and the memory.
-/

import ChipEight.Proofs.Machine.Flow

namespace ChipEight.Machine

variable {machine : Machine}

theorem skipKey_orderly (valid : machine.WellFormed) (past : IsReturnAddress machine.counter)
    (x : Register) (wanted : Bool) : machine.Orderly (machine.skipKey x wanted) := by
  unfold skipKey
  dsimp only
  split
  · exact ignore_orderly valid id
  · exact skipIf_orderly valid past _

/-- Without a key the counter goes back to the instruction that asks for one. -/
theorem awaitKey_orderly (valid : machine.WellFormed) (past : IsReturnAddress machine.counter)
    (x : Register) : machine.Orderly (machine.awaitKey x) := by
  obtain ⟨low, high, even⟩ := past
  unfold awaitKey
  split
  case h_1 =>
    refine ⟨{ valid with counter := ?_ }, .refl _, ⟨.stalled, rfl⟩, ?_⟩
    · exact ⟨by dsimp only; omega, by dsimp only; omega, by dsimp only; omega⟩
    · intro event member
      cases member
  case h_2 key found =>
    have taken : (machine.setRegister x key.val).WellFormed :=
      valid.setRegister x (isByte_nat (by omega))
    exact applied_orderly { taken with } (.refl _)

theorem addIndex_orderly (valid : machine.WellFormed) (x : Register) :
    machine.Orderly (machine.addIndex x) := by
  refine ⟨{ valid with index := ?_ }, .refl _, ⟨.applied, rfl⟩, ?_⟩
  · simp only [addIndex, Memory.size]
    omega
  · intro event member
    simp only [addIndex] at member
    split at member
    · rw [List.mem_singleton.mp member]
      exact id
    · cases member

/-- Values that fit between an address and the end of the memory are stored inside it. -/
theorem storeEach_inside (memory : Memory) {place : Int} (values : List Int) (start : 0 ≤ place)
    (stop : place + values.length ≤ Memory.size) :
    ∀ note ∈ (storeEach memory place values).notes, ¬ note.IsOutside := by
  induction values generalizing memory place with
  | nil => intro note member; cases member
  | cons value rest ih =>
      rw [List.length_cons] at stop
      intro note member
      rcases List.mem_append.mp member with first | later
      · exact memory.write_inside value ⟨start, by omega⟩ note first
      · exact ih _ (by omega) (by omega) note later

theorem storeAll_orderly (valid : machine.WellFormed) (values : List Int)
    (stop : machine.index + values.length ≤ Memory.size) :
    machine.Orderly (machine.storeAll values) :=
  ⟨{ valid with }, .refl _, ⟨.applied, rfl⟩,
    notes_inside (storeEach_inside machine.memory values valid.index.1 stop)⟩

theorem storeDigits_orderly (valid : machine.WellFormed) (x : Register) :
    machine.Orderly (machine.storeDigits x) := by
  unfold storeDigits
  split
  case isTrue => exact reject_orderly valid fun _ => id
  case isFalse room =>
    apply storeAll_orderly valid
    simp only [decimalDigits, List.length_cons, List.length_nil]
    omega

theorem storeRegisters_orderly (valid : machine.WellFormed) (last : Register) :
    machine.Orderly (machine.storeRegisters last) := by
  unfold storeRegisters
  split
  case isTrue => exact reject_orderly valid fun _ => id
  case isFalse room =>
    apply storeAll_orderly valid
    have count := List.length_take_le (last.val + 1) machine.registers.toList
    omega

theorem loadRegisters_orderly (valid : machine.WellFormed) (last : Register) :
    machine.Orderly (machine.loadRegisters last) := by
  unfold loadRegisters
  split
  case isTrue => exact reject_orderly valid fun _ => id
  case isFalse room =>
    refine ⟨{ valid with registers := ?_ }, .refl _, ⟨.applied, rfl⟩, ?_⟩
    · intro place
      have before : ∀ slot (inside : slot < 16), IsByte machine.registers[slot] :=
        fun slot inside => valid.registers ⟨slot, inside⟩
      exact putEach_isByte _ _ _ before place.val place.isLt
    · exact notes_inside (Memory.readEach_inside _ valid.index.1 (by omega))

theorem draw_orderly (valid : machine.WellFormed) (x y : Register) (rows : Fin 16) :
    machine.Orderly (machine.draw x y rows) := by
  unfold draw
  split
  case isTrue => exact ignore_orderly valid id
  split
  case isTrue => exact reject_orderly valid fun _ => id
  case isFalse room =>
    have stop : machine.index + rows.val ≤ Memory.size := by omega
    have across := Display.isPosition_byte (valid.registers x).1 (valid.registers x).2
    have down := Display.isPosition_byte (valid.registers y).1 (valid.registers y).2
    obtain ⟨drawn, collision, goes, same⟩ := Display.draw_returns valid.wide valid.high across down
      (machine.memory.readEach machine.index rows.val).value
    rw [Memory.readRange_inside machine.memory valid.index.1 stop]
    dsimp only [Memory.Reply.map]
    rw [goes]
    have marked := valid.setRegister flagRegister (isByte_flag collision)
    refine ⟨{ marked with wide := ?_, high := ?_ }, same, ⟨.applied, rfl⟩, ?_⟩
    · exact same.1 ▸ valid.wide
    · exact same.2 ▸ valid.high
    · exact notes_inside (Memory.readEach_inside _ valid.index.1 stop)

/-- After a word is fetched every instruction is orderly. -/
theorem execute_orderly (valid : machine.WellFormed) (past : IsReturnAddress machine.counter)
    (instruction : Instruction) : machine.Orderly (machine.execute instruction) := by
  cases instruction with
  | clearScreen => exact applied_orderly { valid with } (Display.clear_sameSize _)
  | leave => exact leave_orderly valid
  | stop => exact halt_orderly valid (.refl _) id
  | callNative word => exact ignore_orderly valid id
  | jump target => exact jump_orderly valid target
  | call target => exact call_orderly valid past target
  | skipEqual x value => exact skipIf_orderly valid past _
  | skipUnequal x value => exact skipIf_orderly valid past _
  | skipSame x y => exact skipIf_orderly valid past _
  | skipDifferent x y => exact skipIf_orderly valid past _
  | put x value => exact applied_orderly (valid.setRegister x (isByte_nat value.isLt)) (.refl _)
  | add x value => exact applied_orderly (valid.setRegister x (isByte_lowByte _)) (.refl _)
  | combine operation x y =>
      have kept := congrArg display (combine_registers machine operation x y)
      exact applied_orderly (valid.combine operation x y) (kept ▸ .refl _)
  | setIndex target =>
      exact applied_orderly { valid with index := ⟨by dsimp only; omega, by dsimp only; omega⟩ } (.refl _)
  | jumpFrom base => exact jumpFrom_orderly valid base
  | random x mask => exact applied_orderly (valid.putRandom x mask) (.refl _)
  | draw x y rows => exact draw_orderly valid x y rows
  | skipPressed x => exact skipKey_orderly valid past x true
  | skipReleased x => exact skipKey_orderly valid past x false
  | readDelay x => exact applied_orderly (valid.setRegister x valid.delay) (.refl _)
  | awaitKey x => exact awaitKey_orderly valid past x
  | setDelay x => exact applied_orderly { valid with delay := valid.registers x } (.refl _)
  | setSound x => exact applied_orderly { valid with sound := valid.registers x } (.refl _)
  | addIndex x => exact addIndex_orderly valid x
  | findGlyph x => exact applied_orderly (valid.findGlyph x) (.refl _)
  | storeDigits x => exact storeDigits_orderly valid x
  | storeRegisters x => exact storeRegisters_orderly valid x
  | loadRegisters x => exact loadRegisters_orderly valid x

/-- Words without an instruction are rejected, which is orderly too. -/
theorem perform_orderly (valid : machine.WellFormed) (past : IsReturnAddress machine.counter)
    (word : Int) : machine.Orderly (machine.perform word) := by
  unfold perform
  split
  · exact execute_orderly valid past _
  · exact reject_orderly valid fun _ => id

end ChipEight.Machine
