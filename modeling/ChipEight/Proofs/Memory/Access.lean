/-
This file follows reads and writes: which bytes they give, what they leave alone, and that inside the
memory none of them is noted as an access outside.
-/

import ChipEight.Memory

namespace ChipEight.Memory

/-- The note of an address, or of a range, that the memory does not have. -/
def Note.IsOutside : Note → Prop
  | .readOutside _ => True
  | .writeOutside _ => True
  | .rangeReadOutside _ _ => True
  | .rangeWriteOutside _ _ => True
  | _ => False

/-- Reading leaves all bytes as they are. -/
theorem read_bytes (memory : Memory) (place : Int) :
    (memory.read place).memory.bytes = memory.bytes := by
  unfold read
  split
  · split <;> rfl
  · rfl

/-- A reading gives the byte at the address, and zero outside. -/
theorem read_value (memory : Memory) (place : Int) :
    (memory.read place).value = memory.byteAt place := by
  unfold read
  split
  case isTrue inside => split <;> rfl
  case isFalse outside => simp [byteAt, cell?, outside]

/-- The byte at an address depends on the bytes only. -/
theorem byteAt_congr {first second : Memory} (same : first.bytes = second.bytes) (place : Int) :
    first.byteAt place = second.byteAt place := by
  unfold byteAt
  rw [same]

theorem read_inside (memory : Memory) {place : Int} (inside : 0 ≤ place ∧ place < size) :
    ∀ note ∈ (memory.read place).notes, ¬ note.IsOutside := by
  intro note member
  unfold read at member
  rw [if_pos inside] at member
  split at member
  · dsimp only at member
    split at member
    · rw [List.mem_singleton] at member
      subst member
      exact id
    · cases member
  · cases member

theorem readEach_length (memory : Memory) (place : Int) (count : Nat) :
    (memory.readEach place count).value.length = count := by
  induction count generalizing memory place with
  | zero => rfl
  | succ count ih => exact congrArg Nat.succ (ih _ _)

theorem readEach_inside (memory : Memory) {place : Int} {count : Nat} (start : 0 ≤ place)
    (stop : place + count ≤ size) :
    ∀ note ∈ (memory.readEach place count).notes, ¬ note.IsOutside := by
  induction count generalizing memory place with
  | zero => intro note member; cases member
  | succ count ih =>
      intro note member
      rcases List.mem_append.mp member with first | later
      · exact memory.read_inside ⟨start, by omega⟩ note first
      · exact ih _ (by omega) (by omega) note later

/-- A range that lies in the memory is read without a fault, byte after byte. -/
theorem readRange_inside (memory : Memory) {room : Nat} {place : Int} {count : Nat} (start : 0 ≤ place)
    (stop : place + count ≤ size) :
    memory.readRange room place count = (memory.readEach place count).map .ok := by
  unfold readRange
  rw [if_pos (by simp [fits, start, stop])]
  rfl

theorem write_inside (memory : Memory) {place : Int} (value : Int)
    (inside : 0 ≤ place ∧ place < size) :
    ∀ note ∈ (memory.write place value).notes, ¬ note.IsOutside := by
  intro note member
  have found : cell? place = some ⟨place.toNat, by omega⟩ := dif_pos inside
  unfold write at member
  rw [found] at member
  dsimp only at member
  split at member
  · rw [List.mem_singleton] at member
    subst member
    exact id
  · dsimp only at member
    split at member
    · rw [List.mem_singleton] at member
      subst member
      exact id
    · cases member

/-- Both memories hold the same bytes and protect the same zones. -/
structure SameContents (first second : Memory) : Prop where
  bytes : first.bytes = second.bytes
  zones : first.zones = second.zones

theorem SameContents.trans {first second third : Memory} (start : first.SameContents second)
    (rest : second.SameContents third) : first.SameContents third :=
  ⟨start.bytes.trans rest.bytes, start.zones.trans rest.zones⟩

theorem read_sameContents (memory : Memory) (place : Int) :
    (memory.read place).memory.SameContents memory := by
  refine ⟨memory.read_bytes place, ?_⟩
  unfold read
  split
  · split <;> rfl
  · rfl

theorem readEach_sameContents (memory : Memory) (place : Int) (count : Nat) :
    (memory.readEach place count).memory.SameContents memory := by
  induction count generalizing memory place with
  | zero => exact ⟨rfl, rfl⟩
  | succ count ih => exact (ih _ _).trans (memory.read_sameContents place)

theorem readRange_sameContents (memory : Memory) (room : Nat) (place count : Int) :
    (memory.readRange room place count).memory.SameContents memory := by
  unfold readRange
  split
  · exact memory.readEach_sameContents place count.toNat
  · exact ⟨rfl, rfl⟩

theorem write_zones (memory : Memory) (place value : Int) :
    (memory.write place value).memory.zones = memory.zones := by
  unfold write
  split
  · rfl
  · split <;> rfl

/-- The cell of an address has the address as its number. -/
theorem cell?_val {place : Int} {cell : Fin size} (found : cell? place = some cell) :
    (cell.val : Int) = place := by
  unfold cell? at found
  split at found
  case isTrue inside =>
    cases found
    exact Int.toNat_of_nonneg inside.1
  case isFalse => cases found

/-- A byte that is written leaves those at all other addresses alone. -/
theorem write_byteAt_ne (memory : Memory) {place other : Int} (value : Int)
    (apart : other ≠ place) :
    (memory.write place value).memory.byteAt other = memory.byteAt other := by
  unfold write
  split
  case h_1 => rfl
  case h_2 cell found =>
    split
    case h_1 => rfl
    case h_2 =>
      have written := cell?_val found
      unfold byteAt
      split
      case h_1 otherCell otherFound =>
        have looked := cell?_val otherFound
        have differ : cell.val ≠ otherCell.val := by omega
        exact Vector.getElem_set_ne cell.isLt otherCell.isLt differ
      case h_2 => rfl

/-- Bytes that are put into place from a start on are found one after another. -/
theorem getElem_replaceFrom (bytes : Vector UInt8 size) (start : Nat) (values : List UInt8)
    (place : Nat) (inside : place < size) :
    (replaceFrom bytes start values)[place] =
      if start ≤ place then values.getD (place - start) bytes[place] else bytes[place] := by
  induction values generalizing bytes start with
  | nil =>
      rw [List.getD_nil, ite_self]
      rfl
  | cons value rest ih =>
      change (replaceFrom (bytes.setIfInBounds start value) (start + 1) rest)[place] = _
      rw [ih, Vector.getElem_setIfInBounds]
      rcases Nat.lt_trichotomy start place with before | here | after
      · have next : place - start = place - (start + 1) + 1 := by omega
        rw [if_pos (show start + 1 ≤ place from before), if_neg (Nat.ne_of_lt before),
          if_pos (Nat.le_of_lt before), next, List.getD_cons_succ]
      · rw [if_neg (by omega), if_pos here, if_pos (Nat.le_of_eq here), here, Nat.sub_self,
          List.getD_cons_zero]
      · rw [if_neg (by omega), if_neg (Nat.ne_of_gt after), if_neg (Nat.not_le.mpr after)]

theorem getElem_replaceFrom_add (bytes : Vector UInt8 size) (start : Nat) {values : List UInt8}
    {offset : Nat} (inside : offset < values.length) (within : start + offset < size) :
    (replaceFrom bytes start values)[start + offset] = values[offset] := by
  rw [getElem_replaceFrom, if_pos (Nat.le_add_right _ _), Nat.add_sub_cancel_left,
    List.getD_eq_getElem?_getD, List.getElem?_eq_getElem inside, Option.getD_some]

/-- The byte at an address that the memory has. -/
theorem byteAt_found (memory : Memory) {place : Int} {cell : Fin size}
    (found : cell? place = some cell) : memory.byteAt place = memory.bytes.get cell := by
  unfold byteAt
  rw [found]
  rfl

end ChipEight.Memory
