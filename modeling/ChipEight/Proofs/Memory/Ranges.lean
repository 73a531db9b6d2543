/-
This file follows bytes that are read and written one after another: each address gives the byte that is there, and
takes the new one if the memory has it and no zone covers it.
-/

import ChipEight.Proofs.Memory.Access

namespace ChipEight.Memory

/-- Bytes are stored at the addresses that the memory has and no zone covers. -/
def Takes (memory : Memory) (place : Int) : Prop :=
  (0 ≤ place ∧ place < size) ∧ ∀ zone ∈ memory.zones, ¬ (zone.1 ≤ place ∧ place < zone.2)

instance (memory : Memory) (place : Int) : Decidable (memory.Takes place) :=
  inferInstanceAs (Decidable (_ ∧ _))

theorem zone?_eq_none_iff (memory : Memory) (place : Int) :
    memory.zone? place = none ↔ ∀ zone ∈ memory.zones, ¬ (zone.1 ≤ place ∧ place < zone.2) := by
  unfold zone?
  rw [List.find?_eq_none]
  simp only [Bool.and_eq_true, decide_eq_true_eq]

/-- Zones alone say which addresses take bytes. -/
theorem takes_congr {first second : Memory} (same : first.zones = second.zones) (place : Int) :
    first.Takes place ↔ second.Takes place := by
  unfold Takes
  rw [same]

/-- A byte is stored as it is. -/
theorem lowByte_ofByte (byte : UInt8) : lowByte (byte.toNat : Int) = byte := by
  have small := byte.toNat_lt
  have same : ((byte.toNat : Int) % 256).toNat = byte.toNat := by omega
  rw [lowByte, same, UInt8.ofNat_toNat]

theorem write_taken {memory : Memory} {place : Int} (takes : memory.Takes place) (value : Int) :
    ∃ cell, cell? place = some cell ∧ (memory.write place value).memory =
      { memory with bytes := memory.bytes.set cell.val (lowByte value) cell.isLt, accesses := memory.accesses + 1 } := by
  obtain ⟨inside, free⟩ := takes
  have found : cell? place = some ⟨place.toNat, by omega⟩ := dif_pos inside
  refine ⟨_, found, ?_⟩
  unfold write
  rw [found, (zone?_eq_none_iff memory place).mpr free]

theorem write_refused {memory : Memory} {place : Int} (refused : ¬ memory.Takes place) (value : Int) :
    (memory.write place value).memory = memory := by
  unfold write
  split
  case h_1 => rfl
  case h_2 cell found =>
    have number := cell?_val found
    split
    case h_1 => rfl
    case h_2 free =>
      have inside : 0 ≤ place ∧ place < size := ⟨by omega, by have := cell.isLt; omega⟩
      exact absurd ⟨inside, (zone?_eq_none_iff memory place).mp free⟩ refused

/-- Of all bytes a write changes the one at its address, and only if that takes it. -/
theorem write_byteAt (memory : Memory) (place value other : Int) :
    (memory.write place value).memory.byteAt other =
      if other = place ∧ memory.Takes place then lowByte value else memory.byteAt other := by
  by_cases takes : memory.Takes place
  case neg => rw [if_neg fun both => takes both.2, write_refused takes]
  by_cases apart : other = place
  case neg => rw [if_neg fun both => apart both.1, write_byteAt_ne memory value apart]
  subst apart
  obtain ⟨cell, found, written⟩ := write_taken takes value
  rw [if_pos ⟨rfl, takes⟩, written, byteAt_found _ found]
  exact Vector.getElem_set_self cell.isLt

/-- A write counts as an access if its byte is stored. -/
theorem write_accesses (memory : Memory) (place value : Int) :
    (memory.write place value).memory.accesses = memory.accesses + if memory.Takes place then 1 else 0 := by
  by_cases takes : memory.Takes place
  · obtain ⟨cell, -, written⟩ := write_taken takes value
    rw [if_pos takes, written]
  · rw [if_neg takes, write_refused takes, Nat.add_zero]

/-- Reading leaves the bytes to be read later as they are. -/
theorem readEach_value (memory : Memory) (place : Int) (count : Nat) :
    (memory.readEach place count).value =
      (List.range count).map fun offset : Nat => memory.byteAt (place + offset) := by
  induction count generalizing memory place with
  | zero => rfl
  | succ count ih =>
      change (memory.read place).value :: ((memory.read place).memory.readEach (place + 1) count).value = _
      rw [ih, memory.read_value, List.range_succ_eq_map, List.map_cons, List.map_map]
      congr 1
      · rw [Int.natCast_zero, Int.add_zero]
      · apply List.map_congr_left
        intro offset _
        rw [Function.comp_apply, byteAt_congr (memory.read_bytes place),
          show place + 1 + (offset : Int) = place + (offset.succ : Nat) by omega]

end ChipEight.Memory
