/-
This file reads dumps of the memory back: a header names the range, and each line after it gives its address, its
bytes and their characters at columns of their own.
-/

import ChipEight.Memory.Dump
import ChipEight.Proofs.Memory.Access
import ChipEight.Proofs.Text.Digits

namespace ChipEight.Memory

/-! ### Columns -/

/-- What a line of a dump says. -/
structure DumpRow where
  place : Nat
  bytes : List UInt8
  shown : List Char

/-- The number that digits of base sixteen stand for. -/
def numberOf? (digits : List Char) : Option Nat :=
  digits.foldlM (fun number digit => (Hex.digitValue? digit).map (16 * number + ·)) 0

/-- A line has its address in four columns, its bytes in forty-seven from the seventh on, where blanks stand between
them, and their characters in sixteen from the fifty-seventh on. -/
def DumpRow.ofLine? (line : List Char) : Option DumpRow := do
  let place ← numberOf? (line.take 4)
  let bytes ← Hex.bytesOfDigits (((line.drop 6).take 47).filter (· != ' '))
  pure ⟨place, bytes, (line.drop 56).take 16⟩

theorem numberOf?_placed {width number : Nat} (fits : number < 16 ^ width) :
    numberOf? ((Text.placed 16 width number).map Char.toUpper) = some number := by
  induction width generalizing number with
  | zero =>
      obtain rfl : number = 0 := by omega
      rfl
  | succ width ih =>
      have fewer : number / 16 < 16 ^ width := by omega
      have last := Text.digitValue_upper ⟨number % 16, Nat.mod_lt _ (by decide)⟩
      have before := ih fewer
      unfold numberOf? at before ⊢
      rw [Text.placed, List.map_append, List.foldlM_append, before]
      simp only [List.map_cons, List.map_nil, List.foldlM_cons, List.foldlM_nil, last, Option.map_some,
        Option.bind_eq_bind, Option.bind_some, Nat.div_add_mod]
      rfl

theorem length_filled (width : Nat) {text : List Char} (fits : text.length ≤ width) :
    (filled width text).length = width := by
  rw [filled, List.length_append, List.length_replicate, Nat.add_sub_cancel' fits]

theorem digit_plain : ∀ value : Fin 16, Hex.digit value.val ≠ ' ' ∧ Hex.digit value.val ≠ '\n' := by
  decide

/-- The digits of bytes are put together from two of each byte, with blanks between the bytes. -/
theorem spaced_bytes (bytes : List UInt8) :
    let column := [' '].intercalate (bytes.map Hex.byte)
    column.filter (· != ' ') = bytes.flatMap Hex.byte ∧ column.length = 3 * bytes.length - 1 ∧ '\n' ∉ column := by
  have pair (byte : UInt8) : (Hex.byte byte).filter (· != ' ') = Hex.byte byte ∧ '\n' ∉ Hex.byte byte := by
    have high := digit_plain ⟨byte.toNat / 16, by have := byte.toNat_lt; omega⟩
    have low := digit_plain ⟨byte.toNat % 16, Nat.mod_lt _ (by decide)⟩
    simp [Hex.byte, high.1, low.1, high.2.symm, low.2.symm]
  induction bytes with
  | nil => simp
  | cons byte rest ih =>
      obtain ⟨digits, line⟩ := pair byte
      cases rest with
      | nil => simp [digits, line, Hex.byteLength]
      | cons next rest =>
          obtain ⟨others, length, plain⟩ := ih
          rw [List.map_cons] at others length plain
          rw [List.map_cons, List.map_cons, List.intercalate_cons_cons]
          refine ⟨?_, ?_, ?_⟩
          · rw [List.filter_append, List.filter_append, digits, others, List.flatMap_cons]
            rfl
          · rw [List.length_append, List.length_append, length, Hex.byteLength]
            simp only [List.length_cons, List.length_nil]
            omega
          · simp [line, plain]

theorem bytesOfDigits_bytes (bytes : List UInt8) : Hex.bytesOfDigits (bytes.flatMap Hex.byte) = some bytes := by
  induction bytes with
  | nil => rfl
  | cons byte rest ih => rw [List.flatMap_cons, Hex.bytesOfDigitsByte, ih, Option.map_some]

/-- The bytes are read back from their column. -/
theorem hexColumn_read (bytes : List UInt8) :
    Hex.bytesOfDigits ((hexColumn bytes).filter (· != ' ')) = some bytes := by
  have blanks (count : Nat) : (List.replicate count ' ').filter (· != ' ') = [] := by simp
  rw [hexColumn, filled, List.filter_append, blanks, List.append_nil, (spaced_bytes bytes).1, bytesOfDigits_bytes]

variable {bytes : List UInt8}

theorem length_hexColumn (short : bytes.length ≤ lineLength) : (hexColumn bytes).length = 47 := by
  refine length_filled 47 ?_
  rw [(spaced_bytes bytes).2.1]
  unfold lineLength at short
  omega

theorem length_characterColumn (short : bytes.length ≤ lineLength) : (characterColumn bytes).length = 16 :=
  length_filled 16 (by rwa [List.length_map])

/-- Bytes that can be printed are shown as their characters, others as points, and blanks fill the column. -/
theorem characterColumn_eq (bytes : List UInt8) :
    characterColumn bytes =
      bytes.map (fun byte => if 32 ≤ byte ∧ byte ≤ 126 then Char.ofNat byte.toNat else '.') ++
        List.replicate (16 - bytes.length) ' ' := by
  unfold characterColumn filled
  rw [List.length_map]
  rfl

/-! ### Lines -/

variable {place : Nat}

theorem length_dumpLine (small : place < 16 ^ 4) (short : bytes.length ≤ lineLength) :
    (dumpLine place bytes).length = 73 := by
  simp [dumpLine, Text.padded_upper small, Text.length_placed, length_hexColumn short, length_characterColumn short]

/-- The columns of a line are cut out of it by their places. -/
theorem cut_columns {first second third : List Char} (four : first.length = 4) (middle : second.length = 47)
    (last : third.length = 16) :
    let line := first ++ [':', ' '] ++ second ++ [' ', ' ', '|'] ++ third ++ ['|']
    line.take 4 = first ∧ (line.drop 6).take 47 = second ∧ (line.drop 56).take 16 = third := by
  have before : first.drop 56 = [] := List.drop_eq_nil_of_le (by omega)
  have between : second.drop 50 = [] := List.drop_eq_nil_of_le (by omega)
  refine ⟨?_, ?_, ?_⟩ <;> simp [List.take_append, List.drop_append, four, middle, last, before, between]

/-- Each line is read back by its columns. -/
theorem ofLine?_dumpLine (small : place < 16 ^ 4) (short : bytes.length ≤ lineLength) :
    DumpRow.ofLine? (dumpLine place bytes) = some ⟨place, bytes, characterColumn bytes⟩ := by
  have number : numberOf? (Hex.padded 4 place).toList = some place := by
    rw [Text.padded_upper small (by decide), numberOf?_placed small]
  have four : (Hex.padded 4 place).toList.length = 4 := by
    rw [Text.padded_upper small (by decide), List.length_map, Text.length_placed]
  obtain ⟨first, second, third⟩ := cut_columns four (length_hexColumn short) (length_characterColumn short)
  unfold DumpRow.ofLine? dumpLine
  rw [first, second, third, number, hexColumn_read]
  rfl

theorem shownByte_plain (byte : UInt8) : shownByte byte ≠ '\n' := by
  have printed : ∀ code : Fin 127, 32 ≤ code.val → Char.ofNat code.val ≠ '\n' := by decide
  unfold shownByte
  split
  case isTrue printable =>
    obtain ⟨low, high⟩ := printable
    have most : byte.toNat ≤ 126 := UInt8.le_iff_toNat_le.mp high
    exact printed ⟨byte.toNat, by omega⟩ (UInt8.le_iff_toNat_le.mp low)
  case isFalse => decide

theorem padded_plain (small : place < 16 ^ 4) : '\n' ∉ (Hex.padded 4 place).toList := by
  have plain : ∀ digit : Fin 16, digit.val.digitChar.toUpper ≠ '\n' := by decide
  rw [Text.padded_upper small (by decide), List.mem_map]
  rintro ⟨digit, member, same⟩
  obtain ⟨value, fits, rfl⟩ := Text.mem_placed (by decide) member
  exact plain ⟨value, fits⟩ same

theorem dumpLine_plain (small : place < 16 ^ 4) : '\n' ∉ dumpLine place bytes := by
  simp [dumpLine, hexColumn, characterColumn, filled, padded_plain small, (spaced_bytes bytes).2.2, shownByte_plain]

/-! ### The lines of a range -/

theorem count_pieces {length : Nat} (positive : 0 < length) : (length + 15) / 16 = (length - 16 + 15) / 16 + 1 := by
  omega

/-- Pieces of sixteen make up the whole. -/
theorem flatMap_pieces {A : Type} (items : List A) :
    ((List.range ((items.length + 15) / 16)).flatMap fun index => (items.drop (16 * index)).take 16) = items := by
  induction known : items.length using Nat.strongRecOn generalizing items with
  | ind length ih =>
      rcases Nat.eq_zero_or_pos length with rfl | positive
      · exact (List.eq_nil_of_length_eq_zero known).symm
      have others := ih (length - 16) (by omega) (items.drop 16) (by rw [List.length_drop, known])
      rw [count_pieces positive, List.range_succ_eq_map, List.flatMap_cons, List.flatMap_map]
      simp only [List.drop_drop] at others
      have next (index : Nat) : 16 * index.succ = 16 + 16 * index := by omega
      simp only [next, others, Nat.mul_zero, List.drop_zero, List.take_append_drop]

/-- Each line holds sixteen bytes, and the last one those that remain. -/
theorem dumpLines_eq (place : Nat) (bytes : List UInt8) :
    dumpLines place bytes = (List.range ((bytes.length + 15) / 16)).map fun index =>
      dumpLine (place + 16 * index) ((bytes.drop (16 * index)).take 16) := by
  fun_induction dumpLines place bytes with
  | case1 place => rfl
  | case2 place first rest ih =>
      have sixteen : lineLength = 16 := rfl
      have next (index : Nat) : place + 16 + 16 * index = place + 16 * index.succ := by omega
      have behind (index : Nat) : 16 + 16 * index = 16 * index.succ := by omega
      have more : 0 < (first :: rest).length := Nat.succ_pos rest.length
      rw [ih, count_pieces more, List.range_succ_eq_map, List.map_cons, List.map_map, List.length_drop]
      simp only [sixteen, List.drop_drop, next, behind, Function.comp_def, Nat.mul_zero, Nat.add_zero, List.drop_zero]

/-- The bytes of a range are those at its addresses. -/
theorem slice_eq (memory : Memory) {start stop : Nat} (inside : stop ≤ size) :
    memory.slice start stop = (List.range (stop - start)).map fun offset : Nat => memory.byteAt (start + offset) := by
  apply List.ext_getElem
  · simp [slice, inside]
  · intro offset _ within
    rw [List.length_map, List.length_range] at within
    have found : cell? ((start + offset : Nat) : Int) = some ⟨start + offset, by omega⟩ :=
      dif_pos ⟨by omega, by omega⟩
    rw [List.getElem_map, List.getElem_range, ← Int.natCast_add, byteAt_found memory found]
    simp [slice, Vector.get]

/-- The row of a dump with so many before it. -/
def rowAt (memory : Memory) (start stop index : Nat) : DumpRow :=
  let bytes := ((memory.slice start stop).drop (16 * index)).take 16
  ⟨start + 16 * index, bytes, characterColumn bytes⟩

section

variable (memory : Memory) {start stop index : Nat}

theorem length_slice (inside : stop ≤ size) : (memory.slice start stop).length = stop - start := by
  rw [slice_eq memory inside, List.length_map, List.length_range]

theorem dumpLines_slice (inside : stop ≤ size) :
    dumpLines start (memory.slice start stop) = (List.range ((stop - start + 15) / 16)).map fun index =>
      dumpLine (memory.rowAt start stop index).place (memory.rowAt start stop index).bytes := by
  rw [dumpLines_eq, memory.length_slice inside]
  rfl

theorem rowAt_short : (memory.rowAt start stop index).bytes.length ≤ lineLength :=
  List.length_take_le 16 _

theorem rowAt_small (inside : stop ≤ size) (present : index ∈ List.range ((stop - start + 15) / 16)) :
    (memory.rowAt start stop index).place < 16 ^ 4 := by
  have few := List.mem_range.mp present
  unfold size at inside
  change start + 16 * index < 16 ^ 4
  omega

theorem ofLine?_rowAt (inside : stop ≤ size) (present : index ∈ List.range ((stop - start + 15) / 16)) :
    DumpRow.ofLine? (dumpLine (memory.rowAt start stop index).place (memory.rowAt start stop index).bytes) =
      some (memory.rowAt start stop index) :=
  ofLine?_dumpLine (memory.rowAt_small inside present) memory.rowAt_short

/-- The bytes of a row are those from its address on. -/
theorem rowAt_bytes (inside : stop ≤ size) :
    let row := memory.rowAt start stop index
    row.bytes = (List.range row.bytes.length).map fun offset : Nat => memory.byteAt (row.place + offset) := by
  intro row
  apply List.ext_getElem
  · rw [List.length_map, List.length_range]
  · intro offset _ _
    have cut : row.bytes = ((memory.slice start stop).drop (16 * index)).take 16 := rfl
    have place : (row.place : Int) + offset = start + ((16 * index + offset : Nat) : Int) := by
      change ((start + 16 * index : Nat) : Int) + offset = _
      omega
    simp only [cut, slice_eq memory inside, List.getElem_take, List.getElem_drop, List.getElem_map,
      List.getElem_range, place]

end

/-! ### Whole dumps -/

theorem intercalate_snoc_nil {A : Type} (separator : List A) {parts : List (List A)} (some : parts ≠ []) :
    separator.intercalate (parts ++ [[]]) = separator.intercalate parts ++ separator := by
  induction parts with
  | nil => exact absurd rfl some
  | cons part rest ih =>
      cases rest with
      | nil => simp
      | cons next rest =>
          rw [List.cons_append, List.cons_append, List.intercalate_cons_cons, List.intercalate_cons_cons,
            ← List.cons_append, ih nofun]
          simp only [List.append_assoc]

/-- A header and lines that are put together are found again. -/
theorem splitOn_page {header : String} {lines : List (List Char)} (plain : '\n' ∉ header.toList)
    (plainly : ∀ line ∈ lines, '\n' ∉ line) :
    ("\n".intercalate (header :: lines.map String.ofList) ++ "\n").toList.splitOn '\n' =
      header.toList :: lines ++ [[]] := by
  have mark : "\n".toList = ['\n'] := rfl
  have texts : (lines.map String.ofList).map String.toList = lines := by
    simp only [List.map_map, Function.comp_def, String.toList_ofList, List.map_id']
  rw [String.toList_append, String.toList_intercalate, mark, List.map_cons, texts,
    ← intercalate_snoc_nil _ (List.cons_ne_nil _ _)]
  refine List.splitOn_intercalate '\n' (fun line member => ?_) (by simp)
  rcases List.mem_append.mp member with held | last
  · rcases List.mem_cons.mp held with rfl | within
    · exact plain
    · exact plainly line within
  · rw [List.mem_singleton.mp last]
    exact List.not_mem_nil

theorem header_plain {first last : Nat} (before : first < 16 ^ 4) (behind : last < 16 ^ 4) :
    '\n' ∉ ("Memory dump 0x" ++ Hex.padded 4 first ++ "-0x" ++ Hex.padded 4 last ++ ":").toList := by
  have fixed : '\n' ∉ "Memory dump 0x".toList ∧ '\n' ∉ "-0x".toList ∧ '\n' ∉ ":".toList := by decide
  simp only [String.toList_append, List.mem_append, fixed, padded_plain before, padded_plain behind, or_self,
    not_false_eq_true]

theorem mapM_map {A B C : Type} {read : B → Option C} {line : A → B} {row : A → C} {items : List A}
    (reads : ∀ item ∈ items, read (line item) = some (row item)) :
    (items.map line).mapM read = some (items.map row) := by
  induction items with
  | nil => rfl
  | cons item rest ih =>
      obtain ⟨here, others⟩ := List.forall_mem_cons.mp reads
      rw [List.map_cons, List.mapM_cons, here, ih others]
      rfl

/-- A dump is read back: its first line names the range, each of the others gives an address, sixteen after the one
before, and the bytes from there on with the characters that are printed for them, and together these are all bytes of
the range. All these lines are of one length. Of an empty range a dump only says so. It is a text about the memory,
which stays as it was. -/
theorem dump_reads_back (memory : Memory) (start length : Int) :
    let first := max 0 start
    let stop := min (first + length) size
    if stop ≤ first then
      memory.dump start length = "Memory dump 0x" ++ Hex.padded 4 first ++ ": empty range\n"
    else
      ∃ (lines : List (List Char)) (rows : List DumpRow),
        (memory.dump start length).toList.splitOn '\n' =
          ("Memory dump 0x" ++ Hex.padded 4 first ++ "-0x" ++ Hex.padded 4 (stop - 1) ++ ":").toList :: lines ++
            [[]] ∧
        lines.length = ((stop - first).toNat + 15) / 16 ∧
        (∀ line ∈ lines, line.length = 73) ∧
        lines.mapM DumpRow.ofLine? = some rows ∧
        rows.map DumpRow.place = (List.range lines.length).map (fun index => first.toNat + 16 * index) ∧
        rows.flatMap DumpRow.bytes =
          (List.range (stop - first).toNat).map (fun offset : Nat => memory.byteAt (first + offset)) ∧
        ∀ row ∈ rows,
          row.bytes = (List.range row.bytes.length).map (fun offset : Nat => memory.byteAt (row.place + offset)) ∧
          row.shown = row.bytes.map (fun byte => if 32 ≤ byte ∧ byte ≤ 126 then Char.ofNat byte.toNat else '.') ++
            List.replicate (16 - row.bytes.length) ' ' := by
  intro first stop
  split
  case isTrue empty => exact if_pos empty
  case isFalse more =>
  obtain ⟨low, lowest⟩ := Int.eq_ofNat_of_zero_le (show 0 ≤ first from Int.le_max_left 0 start)
  obtain ⟨high, highest⟩ := Int.eq_ofNat_of_zero_le (show 0 ≤ stop by omega)
  have inside : high ≤ size := by
    have most : stop ≤ size := Int.min_le_right _ _
    omega
  have count : (stop - first).toNat = high - low := by omega
  let header := "Memory dump 0x" ++ Hex.padded 4 first ++ "-0x" ++ Hex.padded 4 (stop - 1) ++ ":"
  let lines := (List.range ((high - low + 15) / 16)).map fun index =>
    dumpLine (memory.rowAt low high index).place (memory.rowAt low high index).bytes
  let rows := (List.range ((high - low + 15) / 16)).map (memory.rowAt low high)
  have text : memory.dump start length = "\n".intercalate (header :: lines.map String.ofList) ++ "\n" := by
    refine (if_neg more).trans ?_
    change "\n".intercalate (header :: (dumpLines first.toNat (memory.slice first.toNat stop.toNat)).map _) ++ _ = _
    rw [lowest, highest, Int.toNat_natCast, Int.toNat_natCast, memory.dumpLines_slice inside]
  have plain : '\n' ∉ header.toList := by
    have final : stop - 1 = ((high - 1 : Nat) : Int) := by omega
    unfold size at inside
    simp only [header, lowest, final]
    exact header_plain (by omega) (by omega)
  refine ⟨lines, rows, ?_, ?_, ?_, ?_, ?_, ?_, ?_⟩
  · rw [text]
    refine splitOn_page plain fun line member => ?_
    obtain ⟨index, present, rfl⟩ := List.mem_map.mp member
    exact dumpLine_plain (memory.rowAt_small inside present)
  · rw [List.length_map, List.length_range, count]
  · intro line member
    obtain ⟨index, present, rfl⟩ := List.mem_map.mp member
    exact length_dumpLine (memory.rowAt_small inside present) memory.rowAt_short
  · exact mapM_map fun index present => memory.ofLine?_rowAt inside present
  · rw [List.length_map, List.length_range, lowest, Int.toNat_natCast, List.map_map]
    rfl
  · rw [count, lowest, ← slice_eq memory inside, List.flatMap_map]
    have pieces := flatMap_pieces (memory.slice low high)
    rwa [memory.length_slice inside] at pieces
  · intro row member
    obtain ⟨index, -, rfl⟩ := List.mem_map.mp member
    exact ⟨memory.rowAt_bytes inside, characterColumn_eq _⟩

end ChipEight.Memory
