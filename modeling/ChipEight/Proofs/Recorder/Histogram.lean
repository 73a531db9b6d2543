/-
This file reads the opcodes of a history back: snapshots that hold whole numbers of sixteen bits for
opcodes give these as words, and the histogram counts them by family.
-/

import ChipEight.Proofs.Recorder.Recalling

namespace ChipEight

namespace Grid

theorem itemsOfAll_ints (numbers : List Int) :
    itemsOfAll (numbers.map .int) = numbers.map .int := by
  induction numbers with
  | nil => rfl
  | cons number rest ih =>
      change Value.int number :: itemsOfAll (rest.map .int) = _
      rw [ih]
      rfl

/-- Once the items of a row are reached, further ones tell nothing new. -/
theorem Survey.lookAll_ints {survey : Survey} (depth : survey.depth = 1)
    (settled : survey.settled = true) (numbers : List Int) :
    survey.lookAll 1 (numbers.map .int) = survey := by
  obtain ⟨_, sides, _, ragged⟩ := survey
  subst depth settled
  induction numbers with
  | nil => rfl
  | cons number rest ih => exact ih

/-- A list of whole numbers is a row. -/
theorem ofValue_ints (numbers : List Int) :
    ofValue (.ints numbers) = .ok ⟨[numbers.length], numbers.map .int⟩ := by
  have surveyed : Survey.look 0 {} (.ints numbers) = ⟨1, [numbers.length], true, false⟩ := by
    cases numbers with
    | nil => rfl
    | cons number rest =>
        have length : ((number :: rest).map Value.int).length = (number :: rest).length :=
          List.length_map _
        rw [← length]
        exact Survey.lookAll_ints rfl rfl rest
  unfold ofValue
  rw [surveyed]
  change Except.ok (⟨[numbers.length], itemsOfAll (numbers.map .int)⟩ : Grid) = _
  rw [itemsOfAll_ints]

theorem words_ints {numbers : List Int} (sides : List Nat)
    (fits : ∀ number ∈ numbers, 0 ≤ number ∧ number < 0x10000) :
    words 16 ⟨sides, numbers.map .int⟩ = .ok (numbers.map Int.toNat) := by
  change (numbers.map Value.int).mapM (Value.word 16) = _
  induction numbers with
  | nil => rfl
  | cons number rest ih =>
      obtain ⟨⟨low, high⟩, others⟩ := List.forall_mem_cons.mp fits
      obtain ⟨word, rfl⟩ := Int.eq_ofNat_of_zero_le low
      have first : Value.word 16 (.int word) = .ok word := Value.wordInt (Int.ofNat_lt.mp high)
      rw [List.map_cons, List.mapM_cons, first, ih others]
      rfl

end Grid

namespace Recorder

variable {recorder : Recorder}

/-- The snapshots of a history have these words for opcodes, in order. -/
def Shows (recorder : Recorder) (words : List Int) : Prop :=
  recorder.history.toList.map (·.field? "opcode") = words.map fun word => some (.int word)

theorem Shows.unique {words others : List Int} (shows : recorder.Shows words)
    (showsOthers : recorder.Shows others) : words = others := by
  have injective : Function.Injective fun word : Int => some (Value.int word) := by
    rintro first second ⟨⟩
    rfl
  exact List.map_injective_iff.mpr injective (shows.symm.trans showsOthers)

theorem Shows.column {words : List Int} (shows : recorder.Shows words) :
    recorder.column "opcode" = .ok (words.map .int) := by
  have shaped : ∀ state ∈ recorder.history.toList, ∃ entries, state = .dict entries := by
    intro state member
    have shown : state.field? "opcode" ∈ recorder.history.toList.map (·.field? "opcode") :=
      List.mem_map_of_mem member
    rw [shows] at shown
    obtain ⟨word, -, field⟩ := List.mem_map.mp shown
    cases state with
    | dict entries => exact ⟨entries, rfl⟩
    | _ => cases field
  have values : recorder.history.toList.filterMap (·.field? "opcode") = words.map .int := calc
    _ = (recorder.history.toList.map (·.field? "opcode")).filterMap id := by
      rw [List.filterMap_map]
      rfl
    _ = words.filterMap fun word => some (.int word) := by
      rw [shows, List.filterMap_map]
      rfl
    _ = words.map .int := congrFun List.filterMap_eq_map words
  rw [column_fields "opcode" shaped, values]

/-- Opcodes that are words are read as they are. -/
theorem Shows.opcodes {words : List Int} (shows : recorder.Shows words)
    (fits : ∀ word ∈ words, 0 ≤ word ∧ word < 0x10000) :
    recorder.opcodes = .ok (words.map Int.toNat) := by
  unfold Recorder.opcodes
  rw [shows.column]
  change (do
    let grid ← Grid.ofValue (.ints words)
    let words ← grid.words 16
    if grid.sides.length ≤ 1 then pure words else .error (.unfit .notRow)) = _
  rw [Grid.ofValue_ints]
  change (do
    let read ← Grid.words 16 ⟨[words.length], words.map .int⟩
    if [words.length].length ≤ 1 then pure read else .error (.unfit .notRow)) = _
  rw [Grid.words_ints _ fits]
  rfl

/-- The histogram has an entry for each family of which there are opcodes, with their count. -/
theorem histogram_iff {words : List Nat} (read : recorder.opcodes = .ok words)
    (fits : ∀ word ∈ words, word < 0x10000) :
    ∃ table, recorder.histogram = .ok table ∧ ∀ family count, (family, count) ∈ table ↔
      count = words.countP (fun word => word / 0x1000 = family) ∧ count ≠ 0 := by
  unfold histogram
  rw [read]
  refine ⟨_, rfl, fun family count => ?_⟩
  have counted (family : Nat) : (words.map (· / 0x1000)).count family =
      words.countP (fun word => word / 0x1000 = family) := by
    rw [List.count, List.countP_map]
    rfl
  have known (present : words.countP (fun word => word / 0x1000 = family) ≠ 0) : family < 16 := by
    obtain ⟨word, member, same⟩ := List.countP_pos_iff.mp (Nat.pos_of_ne_zero present)
    have small := fits word member
    have quotient : word / 0x1000 = family := by simpa using same
    omega
  simp only [List.mem_filterMap, List.mem_range, counted]
  constructor
  · rintro ⟨other, -, entry⟩
    split at entry
    · cases entry
    case isFalse some =>
      cases entry
      exact ⟨rfl, by simpa using some⟩
  · rintro ⟨rfl, present⟩
    exact ⟨family, known present, if_neg (by simpa using present)⟩

end Recorder

end ChipEight
