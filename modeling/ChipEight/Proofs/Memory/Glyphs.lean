/-
This file shows that the glyphs stay in a memory. Every write leaves their zone alone, a program is put
behind it, and a reset puts the glyphs back.
-/

import ChipEight.Proofs.Memory.Program

namespace ChipEight.Memory

/-- The glyphs are in their place. -/
def HoldsGlyphs (memory : Memory) : Prop :=
  ∀ offset (inside : offset < glyphs.length),
    memory.byteAt (glyphStart + offset : Nat) = glyphs[offset]

/-- The check of the glyphs finds all of them in their place. -/
theorem isIntact_iff (memory : Memory) : memory.isIntact = true ↔ memory.HoldsGlyphs := by
  unfold isIntact damage HoldsGlyphs
  rw [List.isEmpty_iff, List.filterMap_eq_nil_iff]
  constructor
  · intro sound offset inside
    have member : (glyphs[offset], offset) ∈ glyphs.zipIdx := by
      rw [List.mem_zipIdx_iff_getElem?]
      exact List.getElem?_eq_getElem inside
    have same := sound _ member
    simpa using same
  · rintro held ⟨expected, offset⟩ member
    rw [List.mem_zipIdx_iff_getElem?] at member
    obtain ⟨inside, found⟩ := List.getElem?_eq_some_iff.mp member
    have same := held offset inside
    simpa [found] using same

/-- All bytes of the glyphs have their places in the memory. -/
theorem cell?_glyph {offset : Nat} (inside : offset < glyphs.length) :
    ∃ within, cell? (glyphStart + offset : Nat) = some ⟨glyphStart + offset, within⟩ := by
  have count : glyphs.length = 0x50 := rfl
  have within : glyphStart + offset < size := by
    simp only [glyphStart, size]
    omega
  exact ⟨within, dif_pos ⟨by omega, by omega⟩⟩

/-- The bytes from the first glyph up to the end of the last are the glyphs. -/
theorem HoldsGlyphs.slice {memory : Memory} (held : memory.HoldsGlyphs) :
    Slice.ofList memory.bytes.toList (some 0x50) (some 0xa0) = glyphs := by
  have whole : memory.bytes.toList.length = size := Vector.length_toList
  have first : Slice.clamp memory.bytes.toList.length 0x50 = 0x50 := by rw [whole]; rfl
  have last : Slice.clamp memory.bytes.toList.length 0xa0 = 0xa0 := by rw [whole]; rfl
  have count : glyphs.length = 0x50 := rfl
  unfold Slice.ofList
  simp only [Option.map_some, Option.getD_some, first, last]
  apply List.ext_getElem
  · rw [List.length_drop, List.length_take, whole, count]
    rfl
  · intro offset _ inside
    obtain ⟨within, found⟩ := cell?_glyph inside
    have same := held offset inside
    rw [byteAt_found memory found] at same
    rw [List.getElem_drop, List.getElem_take, Vector.getElem_toList]
    exact same

/-- The glyphs are in their place and in a protected zone. -/
structure Guarded (memory : Memory) : Prop where
  held : memory.HoldsGlyphs
  zone : ((glyphStart : Int), (glyphEnd : Int)) ∈ memory.zones

/-- An address of the glyphs lies in some zone, if not in that of the glyphs itself. -/
theorem Guarded.zone?_isSome {memory : Memory} (guarded : memory.Guarded) {place : Int}
    (low : glyphStart ≤ place) (high : place < glyphEnd) : (memory.zone? place).isSome = true := by
  unfold zone?
  rw [List.find?_isSome]
  exact ⟨_, guarded.zone, by simp [low, high]⟩

/-- A write to the glyphs has no effect. -/
theorem Guarded.write_zone {memory : Memory} (guarded : memory.Guarded) {place : Int}
    (low : glyphStart ≤ place) (high : place < glyphEnd) (value : Int) :
    (memory.write place value).memory = memory := by
  obtain ⟨zone, found⟩ := Option.isSome_iff_exists.mp (guarded.zone?_isSome low high)
  unfold write
  split
  case h_1 => rfl
  case h_2 => rw [found]

theorem Guarded.write {memory : Memory} (guarded : memory.Guarded) (place value : Int) :
    (memory.write place value).memory.Guarded := by
  by_cases inZone : (glyphStart : Int) ≤ place ∧ place < glyphEnd
  · rw [guarded.write_zone inZone.1 inZone.2]
    exact guarded
  · refine ⟨?_, ?_⟩
    · intro offset inside
      have apart : ((glyphStart + offset : Nat) : Int) ≠ place := by
        unfold glyphEnd at inZone
        omega
      rw [write_byteAt_ne memory value apart]
      exact guarded.held offset inside
    · rw [write_zones]
      exact guarded.zone

/-- The same bytes hold the same glyphs. -/
theorem HoldsGlyphs.congr {first second : Memory} (held : first.HoldsGlyphs)
    (same : second.bytes = first.bytes) : second.HoldsGlyphs := by
  intro offset inside
  rw [byteAt_congr same]
  exact held offset inside

theorem Guarded.congr {first second : Memory} (guarded : first.Guarded)
    (same : second.SameContents first) : second.Guarded := by
  refine ⟨guarded.held.congr same.bytes, ?_⟩
  rw [same.zones]
  exact guarded.zone

theorem Guarded.writeEach {memory : Memory} (guarded : memory.Guarded) (place : Int)
    (data : List UInt8) : (memory.writeEach place data).memory.Guarded := by
  induction data generalizing memory place with
  | nil => exact guarded
  | cons byte rest ih => exact ih (guarded.write place byte.toNat) (place + 1)

/-- A range that lies partly in the zone of the glyphs is written around them. -/
theorem Guarded.writeRange {memory : Memory} (guarded : memory.Guarded) (place : Int)
    (data : List UInt8) : (memory.writeRange place data).memory.Guarded := by
  unfold Memory.writeRange
  split
  · exact guarded.writeEach place data
  · exact guarded

theorem loadGlyphs_held (memory : Memory) : memory.loadGlyphs.HoldsGlyphs := by
  intro offset inside
  obtain ⟨within, found⟩ := cell?_glyph inside
  exact (byteAt_found _ found).trans (getElem_replaceFrom_add _ glyphStart inside within)

/-- The glyphs need not be there before they are put in place. -/
theorem loadGlyphs_guarded {memory : Memory}
    (zone : ((glyphStart : Int), (glyphEnd : Int)) ∈ memory.zones) : memory.loadGlyphs.Guarded := by
  refine ⟨memory.loadGlyphs_held, ?_⟩
  unfold loadGlyphs
  exact zone

theorem reset_zones (memory : Memory) : memory.reset.zones = memory.zones := by
  unfold reset loadGlyphs clear
  rfl

/-- What leaves the addresses before the program area alone leaves the glyphs alone. -/
theorem HoldsGlyphs.before {first second : Memory} (held : first.HoldsGlyphs)
    (same : ∀ place : Int, place < programStart → second.byteAt place = first.byteAt place) :
    second.HoldsGlyphs := by
  intro offset inside
  have count : glyphs.length = 0x50 := rfl
  rw [same]
  · exact held offset inside
  · simp only [glyphStart, programStart]
    omega

theorem HoldsGlyphs.withProgram {memory : Memory} (held : memory.HoldsGlyphs)
    (program : List UInt8) : (memory.withProgram program).HoldsGlyphs :=
  held.before fun _ before => memory.withProgram_byteAt_before program before

theorem Guarded.withProgram {memory : Memory} (guarded : memory.Guarded) (program : List UInt8) :
    (memory.withProgram program).Guarded :=
  ⟨guarded.held.withProgram program, guarded.zone⟩

theorem Guarded.load {memory : Memory} (guarded : memory.Guarded)
    (program : Option (List UInt8)) : (memory.load program).memory.Guarded := by
  unfold Memory.load
  dsimp only
  split
  · exact guarded
  · exact guarded.withProgram _

theorem Guarded.protect {memory : Memory} (guarded : memory.Guarded) (start stop : Int) :
    (memory.protect start stop).Guarded :=
  ⟨guarded.held.congr rfl, List.mem_append_left _ guarded.zone⟩

theorem initial_guarded : initial.Guarded := by
  unfold initial
  exact loadGlyphs_guarded (List.mem_singleton_self _)

/-- What a host does with a memory, but for clearing it and setting its bytes directly. -/
inductive Deed where
  | read (place : Int)
  | readRange (room : Nat) (place count : Int)
  | write (place value : Int)
  | writeRange (place : Int) (data : List UInt8)
  | load (program : Option (List UInt8))
  | loadGlyphs
  | reset
  | protect (start stop : Int)
  deriving DecidableEq, Repr

/-- The memory after a deed. -/
def carryOut (memory : Memory) : Deed → Memory
  | .read place => (memory.read place).memory
  | .readRange room place count => (memory.readRange room place count).memory
  | .write place value => (memory.write place value).memory
  | .writeRange place data => (memory.writeRange place data).memory
  | .load program => (memory.load program).memory
  | .loadGlyphs => memory.loadGlyphs
  | .reset => memory.reset
  | .protect start stop => memory.protect start stop

theorem Guarded.carryOut {memory : Memory} (guarded : memory.Guarded) (deed : Deed) :
    (memory.carryOut deed).Guarded := by
  cases deed with
  | read place => exact guarded.congr (memory.read_sameContents place)
  | readRange room place count => exact guarded.congr (memory.readRange_sameContents room place count)
  | write place value => exact guarded.write place value
  | writeRange place data => exact guarded.writeRange place data
  | load program => exact guarded.load program
  | loadGlyphs => exact loadGlyphs_guarded guarded.zone
  | reset => exact @loadGlyphs_guarded memory.clear guarded.zone
  | protect start stop => exact guarded.protect start stop

end ChipEight.Memory
