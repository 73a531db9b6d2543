/-
This file says what becomes of a range of addresses that is read or written as a whole: which bytes are given or
stored under any protection, and by how much the accesses grow. A range that does not fit is left alone.
-/

import ChipEight.Proofs.Memory.Ranges

namespace ChipEight.Memory

/-- Some zone holds the address. -/
def IsCovered (zones : List (Int × Int)) (place : Int) : Prop :=
  ∃ zone ∈ zones, zone.1 ≤ place ∧ place < zone.2

instance (zones : List (Int × Int)) (place : Int) : Decidable (IsCovered zones place) :=
  inferInstanceAs (Decidable (∃ zone ∈ zones, _))

variable (memory : Memory)

/-- Of the addresses that the memory has, those take bytes that no zone holds. -/
theorem takes_iff_not_isCovered {place : Int} (inside : 0 ≤ place ∧ place < size) :
    memory.Takes place ↔ ¬ IsCovered memory.zones place := by
  unfold Takes IsCovered
  constructor
  · rintro ⟨-, free⟩ ⟨zone, member, within⟩
    exact free zone member within
  · intro free
    exact ⟨inside, fun zone member within => free ⟨zone, member, within⟩⟩

/-! ### Writing -/

theorem writeEach_zones (place : Int) (data : List UInt8) :
    (memory.writeEach place data).memory.zones = memory.zones := by
  induction data generalizing memory place with
  | nil => rfl
  | cons byte rest ih => exact (ih _ _).trans (memory.write_zones place byte.toNat)

/-- The bytes are stored one after another at the addresses that take them. -/
theorem writeEach_byteAt (place : Int) (data : List UInt8) (other : Int) :
    (memory.writeEach place data).memory.byteAt other =
      if place ≤ other ∧ memory.Takes other then data.getD (other - place).toNat (memory.byteAt other)
      else memory.byteAt other := by
  induction data generalizing memory place with
  | nil =>
      rw [List.getD_nil, ite_self]
      rfl
  | cons byte rest ih =>
      change ((memory.write place byte.toNat).memory.writeEach (place + 1) rest).memory.byteAt other = _
      rw [ih, write_byteAt, lowByte_ofByte]
      simp only [takes_congr (memory.write_zones place byte.toNat)]
      by_cases takes : memory.Takes other
      case neg =>
        have kept : ¬ (other = place ∧ memory.Takes place) := by
          rintro ⟨rfl, stored⟩
          exact takes stored
        rw [if_neg fun both => takes both.2, if_neg kept, if_neg fun both => takes both.2]
      rcases Int.lt_trichotomy place other with before | rfl | after
      · have next : (other - place).toNat = (other - (place + 1)).toNat + 1 := by omega
        rw [if_pos ⟨by omega, takes⟩, if_neg fun both => absurd both.1 (by omega), if_pos ⟨by omega, takes⟩,
          next, List.getD_cons_succ]
      · rw [if_neg fun both => absurd both.1 (by omega), if_pos ⟨rfl, takes⟩, if_pos ⟨Int.le_refl _, takes⟩,
          Int.sub_self]
        rfl
      · rw [if_neg fun both => absurd both.1 (by omega), if_neg fun both => absurd both.1 (by omega),
          if_neg fun both => absurd both.1 (by omega)]

/-- The first of the offsets and those after it are counted apart. -/
theorem countP_offsets (counts : Int → Bool) (place : Int) (length : Nat) :
    (List.range (length + 1)).countP (fun offset : Nat => counts (place + offset)) =
      (if counts place then 1 else 0) +
        (List.range length).countP fun offset : Nat => counts (place + 1 + offset) := by
  have next (offset : Nat) : place + (offset.succ : Nat) = place + 1 + offset := by omega
  rw [List.range_succ_eq_map, List.countP_cons, List.countP_map, Nat.add_comm, Int.natCast_zero, Int.add_zero]
  simp only [Function.comp_def, next]

/-- The accesses grow by the count of the bytes that are stored. -/
theorem writeEach_accesses (place : Int) (data : List UInt8) :
    (memory.writeEach place data).memory.accesses = memory.accesses +
      (List.range data.length).countP fun offset : Nat => memory.Takes (place + offset) := by
  induction data generalizing memory place with
  | nil => rfl
  | cons byte rest ih =>
      change ((memory.write place byte.toNat).memory.writeEach (place + 1) rest).memory.accesses = _
      rw [ih, write_accesses, List.length_cons, countP_offsets fun place => memory.Takes place]
      simp only [takes_congr (memory.write_zones place byte.toNat), decide_eq_true_eq, Nat.add_assoc]

/-! ### Reading -/

theorem read_accesses {place : Int} (inside : 0 ≤ place ∧ place < size) :
    (memory.read place).memory.accesses = memory.accesses + if programStart ≤ place then 1 else 0 := by
  unfold read
  rw [if_pos inside]
  split <;> rfl

/-- The accesses grow by the count of the bytes that are read from the program area. -/
theorem readEach_accesses {place : Int} {count : Nat} (start : 0 ≤ place) (stop : place + count ≤ size) :
    (memory.readEach place count).memory.accesses = memory.accesses +
      (List.range count).countP fun offset : Nat => (programStart : Int) ≤ place + offset := by
  induction count generalizing memory place with
  | zero => rfl
  | succ count ih =>
      change ((memory.read place).memory.readEach (place + 1) count).memory.accesses = _
      rw [ih _ (by omega) (by omega), memory.read_accesses ⟨start, by omega⟩,
        countP_offsets fun place => (programStart : Int) ≤ place]
      simp only [decide_eq_true_eq, Nat.add_assoc]

/-! ### Whole ranges -/

theorem fits_iff {place count : Int} : fits place count = true ↔ 0 ≤ place ∧ place + count ≤ size := by
  simp [fits]

/-- A byte string of zeros stands for a range that does not fit, if there is one and the host has room for it. -/
theorem readRange_unfit (room : Nat) {place : Int} {count : Nat}
    (unfit : ¬ (0 ≤ place ∧ place + count ≤ size)) :
    (memory.readRange room place count).memory = memory ∧
      (memory.readRange room place count).value =
        if longestBytes < count then .error .tooLarge
        else if room < count then .error (.noRoom .bytes)
        else .ok (List.replicate count 0) := by
  have positive : ¬ (count : Int) < 0 := by omega
  unfold readRange
  rw [if_neg (mt fits_iff.mp unfit), if_neg positive, Int.toNat_natCast]
  simp only [Int.ofNat_lt, and_self]

/-- Reading a range that fits changes nothing but the count of accesses. -/
theorem readRange_fit (room : Nat) {place : Int} {count : Nat} (fit : 0 ≤ place ∧ place + count ≤ size) :
    (memory.readRange room place count).value =
        .ok ((List.range count).map fun offset : Nat => memory.byteAt (place + offset)) ∧
      (memory.readRange room place count).memory = { memory with
        accesses := memory.accesses +
          (List.range count).countP fun offset : Nat => (programStart : Int) ≤ place + offset } := by
  rw [memory.readRange_inside fit.1 fit.2]
  refine ⟨congrArg Except.ok (memory.readEach_value place count), ?_⟩
  obtain ⟨bytes, zones⟩ := memory.readEach_sameContents place count
  rw [← memory.readEach_accesses fit.1 fit.2, ← bytes, ← zones]
  rfl

theorem writeRange_fit {place : Int} {data : List UInt8} (fit : 0 ≤ place ∧ place + data.length ≤ size) :
    memory.writeRange place data = (memory.writeEach place data).map fun _ => true :=
  if_pos (fits_iff.mpr fit)

theorem writeRange_unfit {place : Int} {data : List UInt8} (unfit : ¬ (0 ≤ place ∧ place + data.length ≤ size)) :
    (memory.writeRange place data).value = false ∧ (memory.writeRange place data).memory = memory := by
  unfold writeRange
  rw [if_neg (mt fits_iff.mp unfit)]
  exact ⟨rfl, rfl⟩

/-- In a range that fits, each byte is stored whose address no zone holds. -/
theorem writeRange_byteAt {place : Int} {data : List UInt8} (fit : 0 ≤ place ∧ place + data.length ≤ size)
    (other : Int) :
    (memory.writeRange place data).memory.byteAt other =
      if (place ≤ other ∧ other < place + data.length) ∧ ¬ IsCovered memory.zones other then
        data.getD (other - place).toNat 0
      else memory.byteAt other := by
  rw [memory.writeRange_fit fit]
  change (memory.writeEach place data).memory.byteAt other = _
  rw [writeEach_byteAt]
  by_cases within : place ≤ other ∧ other < place + data.length
  · have inside : (other - place).toNat < data.length := by omega
    have known : 0 ≤ other ∧ other < size := ⟨by omega, by omega⟩
    simp only [memory.takes_iff_not_isCovered known, within, and_self, true_and, List.getD_eq_getElem?_getD,
      List.getElem?_eq_getElem inside, Option.getD_some]
  · rw [if_neg (fun both => within both.1 : ¬ ((place ≤ other ∧ other < place + data.length) ∧ _))]
    split
    case isTrue taken =>
      have beyond : data.length ≤ (other - place).toNat := by omega
      rw [List.getD_eq_getElem?_getD, List.getElem?_eq_none beyond, Option.getD_none]
    case isFalse => rfl

theorem writeRange_accesses {place : Int} {data : List UInt8} (fit : 0 ≤ place ∧ place + data.length ≤ size) :
    (memory.writeRange place data).memory.accesses = memory.accesses +
      (List.range data.length).countP fun offset : Nat => ¬ IsCovered memory.zones (place + offset) := by
  rw [memory.writeRange_fit fit]
  refine (memory.writeEach_accesses place data).trans (congrArg (memory.accesses + ·) ?_)
  refine List.countP_congr fun offset member => ?_
  have within := List.mem_range.mp member
  have known : 0 ≤ place + offset ∧ place + offset < size := ⟨by omega, by omega⟩
  simp only [decide_eq_true_eq, memory.takes_iff_not_isCovered known]

/-- A range that does not fit is neither written nor read: the first gives false and the second zeros, unless no byte
string is that long or the host has no room for it. A range that fits is written where no zone holds its addresses,
nothing else is changed, and each byte that is stored is an access; it is read as it is, and each byte from the
program area on is an access. So what has been written is read back where no zone holds the addresses. -/
theorem ranges_whole (room : Nat) (place : Int) :
    (∀ data : List UInt8,
      let reply := memory.writeRange place data
      if 0 ≤ place ∧ place + data.length ≤ size then
        reply.value = true ∧
        (∀ other : Int, reply.memory.byteAt other =
          if (place ≤ other ∧ other < place + data.length) ∧ ¬ IsCovered memory.zones other then
            data.getD (other - place).toNat 0
          else memory.byteAt other) ∧
        reply.memory.zones = memory.zones ∧
        reply.memory.accesses = memory.accesses +
          (List.range data.length).countP fun offset : Nat => ¬ IsCovered memory.zones (place + offset)
      else reply.value = false ∧ reply.memory = memory) ∧
    (∀ count : Nat,
      let reply := memory.readRange room place count
      if 0 ≤ place ∧ place + count ≤ size then
        reply.value = .ok ((List.range count).map fun offset : Nat => memory.byteAt (place + offset)) ∧
        reply.memory = { memory with
          accesses := memory.accesses +
            (List.range count).countP fun offset : Nat => (programStart : Int) ≤ place + offset }
      else reply.memory = memory ∧
        reply.value =
          if longestBytes < count then .error .tooLarge
          else if room < count then .error (.noRoom .bytes)
          else .ok (List.replicate count 0)) ∧
    ∀ data : List UInt8, (memory.writeRange place data).value = true →
      ∃ bytes, ((memory.writeRange place data).memory.readRange room place data.length).value = .ok bytes ∧
        bytes.length = data.length ∧
        ∀ offset : Nat, ¬ IsCovered memory.zones (place + offset) → bytes[offset]? = data[offset]? := by
  refine ⟨fun data => ?_, fun count => ?_, fun data done => ?_⟩
  · intro reply
    split
    case isTrue fit =>
      have stored : reply = (memory.writeEach place data).map fun _ => true := memory.writeRange_fit fit
      refine ⟨by rw [stored]; rfl, memory.writeRange_byteAt fit, ?_, memory.writeRange_accesses fit⟩
      rw [stored]
      exact memory.writeEach_zones place data
    case isFalse unfit => exact memory.writeRange_unfit unfit
  · intro reply
    split
    case isTrue fit => exact memory.readRange_fit room fit
    case isFalse unfit => exact memory.readRange_unfit room unfit
  · have fit : 0 ≤ place ∧ place + data.length ≤ size := by
      refine Decidable.byContradiction fun unfit => ?_
      rw [(memory.writeRange_unfit unfit).1] at done
      cases done
    refine ⟨_, (Memory.readRange_fit _ room fit).1, by rw [List.length_map, List.length_range], ?_⟩
    intro offset free
    rw [List.getElem?_map]
    by_cases inside : offset < data.length
    · have back : (place + offset - place).toNat = offset := by omega
      rw [List.getElem?_range inside, Option.map_some, memory.writeRange_byteAt fit,
        if_pos ⟨⟨by omega, by omega⟩, free⟩, back, List.getD_eq_getElem?_getD, List.getElem?_eq_getElem inside,
        Option.getD_some]
    · have beyond : data.length ≤ offset := Nat.not_lt.mp inside
      rw [List.getElem?_eq_none (by rwa [List.length_range]), List.getElem?_eq_none beyond, Option.map_none]

/-- There is no byte string of so many zeros, and reading them is refused on every host. -/
theorem endless_zeros_refused :
    fits 0 0x8000000000000000 = false ∧
      ∀ room, (initial.readRange room 0 0x8000000000000000).value = .error .tooLarge := by
  refine ⟨by decide, fun room => ?_⟩
  generalize initial = memory
  unfold readRange
  rw [if_neg (by decide), if_neg (by decide), if_pos (by decide)]

end ChipEight.Memory
