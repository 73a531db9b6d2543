/-
This file shows that what was written to a file is read from it: any content, and a text whose lines all
end alike as that text.
-/

import ChipEight.Files
import ChipEight.Proofs.Files.Layout
import ChipEight.Proofs.Text.Splitting

namespace ChipEight

/-! ### Texts -/

/-- The bytes from a place on come after those that were read. -/
theorem byteArray_toList_loop (bytes : ByteArray) (start : Nat) (read : List UInt8) :
    ByteArray.toList.loop bytes start read = read.reverse ++ bytes.data.toList.drop start := by
  have length : bytes.data.toList.length = bytes.size := Array.length_toList
  rw [ByteArray.toList.loop]
  split
  case isTrue inside =>
    have within : start < bytes.data.toList.length := length ▸ inside
    have byte : bytes.get! start = bytes.data.toList[start] := getElem!_pos bytes.data start inside
    rw [byteArray_toList_loop bytes (start + 1), List.drop_eq_getElem_cons within, byte,
      List.reverse_cons, List.append_assoc, List.singleton_append]
  case isFalse outside =>
    rw [List.drop_eq_nil_of_le (length ▸ Nat.le_of_not_lt outside), List.append_nil]
termination_by bytes.size - start

/-- The bytes of a list are read off it. -/
theorem byteArray_toList (bytes : ByteArray) : bytes.toList = bytes.data.toList := by
  unfold ByteArray.toList
  rw [byteArray_toList_loop]
  rfl

namespace Utf8

theorem characters_complete {position more code whole : Nat} {first : UInt8} {rest : List UInt8}
    (others : List UInt8) (starts : head? first = some (more, code))
    (done : complete first code 1 more rest = .ok (whole, others)) :
    characters position (first :: rest) =
      (characters (position + more + 1) others).map (Char.ofNat whole :: ·) := by
  rw [characters, starts]
  dsimp only
  split
  case h_1 failed => cases done.symm.trans failed
  case h_2 given =>
    cases done.symm.trans given
    cases characters (position + more + 1) others <;> rfl

/-- A byte that fits takes its six bits to the others. -/
theorem complete_cons {first : UInt8} {taken bits : Nat} (code more : Nat) (rest : List UInt8)
    (small : bits < 64) (fits : follows first taken (UInt8.ofNat (bits + 128)) = true) :
    complete first code taken (more + 1) (UInt8.ofNat (bits + 128) :: rest) =
      complete first (64 * code + bits) (taken + 1) more rest := by
  have value : (UInt8.ofNat (bits + 128)).toNat - 0x80 = bits := by
    rw [UInt8.toNat_ofNat']
    omega
  rw [complete, if_pos fits, value]

/-- A byte with six bits goes on with a character, as the second one within the bounds of its first. -/
theorem follows_ofNat {lead taken bits : Nat} (single : lead < 256) (small : bits < 64)
    (bounds : taken = 1 → (lead = 0xe0 → 32 ≤ bits) ∧ (lead = 0xed → bits < 32) ∧
      (lead = 0xf0 → 16 ≤ bits) ∧ (lead = 0xf4 → bits < 16)) :
    follows (UInt8.ofNat lead) taken (UInt8.ofNat (bits + 128)) = true := by
  have code : (UInt8.ofNat lead).toNat = lead := by
    rw [UInt8.toNat_ofNat']
    omega
  have value : (UInt8.ofNat (bits + 128)).toNat = bits + 128 := by
    rw [UInt8.toNat_ofNat']
    omega
  unfold follows secondFits isContinuation
  simp only [beq_iff_eq, ← UInt8.toNat_inj, UInt8.le_iff_toNat_le, code, value,
    UInt8.reduceToNat]
  grind

theorem head?_ofNat {code : Nat} (small : code < 256) :
    head? (UInt8.ofNat code) =
      if code < 0x80 then some (0, code)
      else if code < 0xc2 then none
      else if code < 0xe0 then some (1, code - 0xc0)
      else if code < 0xf0 then some (2, code - 0xe0)
      else if code < 0xf5 then some (3, code - 0xf0)
      else none := by
  unfold head?
  rw [UInt8.toNat_ofNat', Nat.mod_eq_of_lt small]

theorem head?_pair {bits : Nat} (least : 2 ≤ bits) (most : bits < 32) :
    head? (UInt8.ofNat (bits + 192)) = some (1, bits) := by
  rw [head?_ofNat (by omega), if_neg (by omega), if_neg (by omega), if_pos (by omega), Nat.add_sub_cancel]

theorem head?_triple {bits : Nat} (most : bits < 16) :
    head? (UInt8.ofNat (bits + 224)) = some (2, bits) := by
  rw [head?_ofNat (by omega), if_neg (by omega), if_neg (by omega), if_neg (by omega), if_pos (by omega),
    Nat.add_sub_cancel]

theorem head?_quadruple {bits : Nat} (most : bits < 5) :
    head? (UInt8.ofNat (bits + 240)) = some (3, bits) := by
  rw [head?_ofNat (by omega), if_neg (by omega), if_neg (by omega), if_neg (by omega), if_neg (by omega),
    if_pos (by omega), Nat.add_sub_cancel]

/-- The bytes of a character are read as that character. -/
theorem characters_encoded (position : Nat) (character : Char) (rest : List UInt8) :
    ∃ behind, characters position (String.utf8EncodeChar character ++ rest) =
      (characters behind rest).map (character :: ·) := by
  have valid : character.val.toNat < 0xd800 ∨
      0xdfff < character.val.toNat ∧ character.val.toNat < 0x110000 := character.valid
  have same : character = Char.ofNat character.val.toNat := (Char.ofNat_toNat character).symm
  rw [String.utf8EncodeChar]
  generalize character.val.toNat = code at valid same ⊢
  subst same
  by_cases one : code ≤ 0x7f
  · have starts : head? (UInt8.ofNat code) = some (0, code) := by
      rw [head?_ofNat (by omega), if_pos (by omega)]
    rw [if_pos one]
    exact ⟨_, characters_complete rest starts rfl⟩
  rw [if_neg one]
  by_cases two : code ≤ 0x7ff
  · rw [if_pos two]
    refine ⟨_, characters_complete rest (head?_pair (by omega) (by omega)) ?_⟩
    change complete _ _ _ _ (UInt8.ofNat (code % 64 + 128) :: rest) = _
    rw [complete_cons _ _ _ (by omega) (follows_ofNat (by omega) (by omega) (by omega)), complete]
    exact congrArg (fun whole => Except.ok (whole, rest)) (by omega)
  rw [if_neg two]
  by_cases three : code ≤ 0xffff
  · rw [if_pos three]
    refine ⟨_, characters_complete rest (head?_triple (by omega)) ?_⟩
    change complete _ _ _ _
      (UInt8.ofNat (code / 64 % 64 + 128) :: UInt8.ofNat (code % 64 + 128) :: rest) = _
    rw [complete_cons _ _ _ (by omega) (follows_ofNat (by omega) (by omega) (by omega)),
      complete_cons _ _ _ (by omega) (follows_ofNat (by omega) (by omega) (by omega)), complete]
    exact congrArg (fun whole => Except.ok (whole, rest)) (by omega)
  · rw [if_neg three]
    refine ⟨_, characters_complete rest (head?_quadruple (by omega)) ?_⟩
    change complete _ _ _ _ (UInt8.ofNat (code / 4096 % 64 + 128) ::
      UInt8.ofNat (code / 64 % 64 + 128) :: UInt8.ofNat (code % 64 + 128) :: rest) = _
    rw [complete_cons _ _ _ (by omega) (follows_ofNat (by omega) (by omega) (by omega)),
      complete_cons _ _ _ (by omega) (follows_ofNat (by omega) (by omega) (by omega)),
      complete_cons _ _ _ (by omega) (follows_ofNat (by omega) (by omega) (by omega)), complete]
    exact congrArg (fun whole => Except.ok (whole, rest)) (by omega)

/-- The bytes of a text stand for it. -/
theorem decode_toUTF8 (text : String) : decode text.toUTF8.toList = .ok text := by
  have bytes : text.toUTF8.toList = text.toList.flatMap String.utf8EncodeChar := by
    rw [byteArray_toList]
    change text.toByteArray.data.toList = _
    rw [← String.utf8Encode_toList, List.utf8Encode, List.data_toByteArray]
  have read (position : Nat) (characters : List Char) :
      Utf8.characters position (characters.flatMap String.utf8EncodeChar) = .ok characters := by
    induction characters generalizing position with
    | nil => rw [List.flatMap_nil, Utf8.characters]
    | cons first others ih =>
        obtain ⟨behind, reads⟩ := characters_encoded position first
          (others.flatMap String.utf8EncodeChar)
        rw [List.flatMap_cons, reads, ih]
        rfl
  unfold decode
  rw [bytes, read]
  exact congrArg Except.ok String.ofList_toList

end Utf8

namespace Files

theorem unifiedLines_plain {text : List Char} (plain : '\r' ∉ text) : unifiedLines text = text := by
  induction text with
  | nil => rfl
  | cons first rest ih =>
      obtain ⟨here, others⟩ := List.ne_and_not_mem_of_not_mem_cons plain
      rw [unifiedLines, ih others]
      · exact fun _ same _ => here same.symm
      · exact fun same => here same.symm

/-- A text without returns is read as it was written. -/
theorem textOf_ofText {text : String} (plain : '\r' ∉ text.toList) :
    textOf (.ofText text) = .ok text := by
  simp only [textOf, Content.ofText, Utf8.decode_toUTF8, unifiedLines_plain plain, String.ofList_toList]

/-! ### Reading what was written -/

variable {files after : Files} {path : String} {place : List String}

/-- A node that takes no directory's place is found there, and all others stay. -/
theorem node?_set_free (free : files.node? place ≠ some .directory) (node : Node) (other : List String) :
    (files.set place node).node? other = if other = place then some node else files.node? other := by
  rw [node?_set]
  split
  case isTrue above =>
    have there : files.node? other = some .directory := if_pos above
    have apart : other ≠ place := fun same => free (same ▸ there)
    rw [if_neg apart, there]
  case isFalse => rfl

/-- A step leads to the same place after a node was set where no directory is. -/
theorem step_set {start target : List String} {name : String} (node : Node)
    (free : files.node? place ≠ some .directory) (steps : files.step start name = .ok target) :
    (files.set place node).step start name = .ok target := by
  have directory : files.node? start = some .directory := by
    unfold step at steps
    split at steps
    case h_1 => cases steps
    case h_2 => cases steps
    case h_3 found => exact found
  have still : (files.set place node).node? start = some .directory := by
    have other : start ≠ place := fun same => free (same ▸ directory)
    rw [node?_set_free free, if_neg other, directory]
  unfold step at steps ⊢
  rw [directory] at steps
  rw [still]
  exact steps

theorem steps_set {start target : List String} {names : List String} (node : Node)
    (free : files.node? place ≠ some .directory)
    (steps : names.foldlM (fun place name => files.step place name) start = .ok target) :
    names.foldlM (fun here name => (files.set place node).step here name) start = .ok target := by
  induction names generalizing start with
  | nil => exact steps
  | cons name rest ih =>
      rw [List.foldlM_cons] at steps ⊢
      cases first : files.step start name with
      | error refusal =>
          rw [first] at steps
          cases steps
      | ok next =>
          rw [first] at steps
          rw [step_set node free first]
          exact ih steps

/-- A path that can be written asks for no directory, and leads to the file that is there, if there is one. -/
theorem writable_found {present : Option Content} (opens : files.writable path = .ok (place, present)) :
    files.locate path = .ok place ∧ Path.asksDirectory path = false ∧ files.node? place = present.map .file := by
  unfold writable at opens
  cases located : files.locate path with
  | error refusal =>
      rw [located] at opens
      cases opens
  | ok found =>
      simp only [located, bind, Except.bind] at opens
      split at opens
      · cases opens
      case isFalse plain =>
        split at opens
        case h_1 => cases opens
        case h_2 there =>
          cases opens
          exact ⟨rfl, Bool.eq_false_iff.mpr plain, there⟩
        case h_3 free =>
          cases opens
          exact ⟨rfl, Bool.eq_false_iff.mpr plain, free⟩

/-- Where a file is or can be, there is no directory. -/
theorem not_directory {present : Option Content} (found : files.node? place = present.map .file) :
    files.node? place ≠ some .directory := by
  rw [found]
  cases present <;> exact nofun

theorem write_cases {content : Content} (written : files.write path content = .ok after) :
    path.contains '\x00' = false ∧ ∃ place present, files.writable path = .ok (place, present) ∧
      after = files.set place (.file content) := by
  unfold write guarded at written
  split at written
  · cases written
  case isFalse plain =>
    refine ⟨Bool.eq_false_iff.mpr plain, ?_⟩
    cases opens : files.writable path with
    | error refusal =>
        rw [opens] at written
        cases written
    | ok found =>
        rw [opens] at written
        cases written
        exact ⟨found.1, found.2, rfl, rfl⟩

/-- What was written is read. -/
theorem read_write {content : Content} (written : files.write path content = .ok after) :
    after.read path = .ok content := by
  obtain ⟨plain, place, present, opens, rfl⟩ := write_cases written
  obtain ⟨located, single, found⟩ := writable_found opens
  have free := not_directory found
  have again : (files.set place (.file content)).locate path = .ok place := by
    unfold locate at located ⊢
    split at located
    · cases located
    case isFalse named =>
      rw [if_neg named]
      split at located
      · cases located
      case isFalse short =>
        rw [if_neg short]
        exact steps_set _ free located
  have found : (files.set place (.file content)).node? place = some (.file content) := by
    rw [node?_set_free free, if_pos rfl]
  unfold read guarded
  simp only [plain, again, found, single, bind, Except.bind, Except.mapError, Bool.false_eq_true, if_false]

/-- A name that leads from the working directory to what is in it. -/
structure IsName (name : String) : Prop where
  single : '/' ∉ name.toList
  text : '\x00' ∉ name.toList
  short : name.utf8ByteSize ≤ 255
  given : name ≠ ""
  stays : name ≠ "." ∧ name ≠ ".."

/-- A name is the only step of itself. -/
theorem steps_name {name : String} (plain : IsName name) : Path.steps name = [name] := by
  rw [Path.steps, show "/" = String.ofList ['/'] from rfl, Text.splitOn_plain plain.single]
  simp [plain.given]

theorem locate_name (files : Files) {name : String} (plain : IsName name) :
    files.locate name = .ok [name] := by
  have filled : name.isEmpty = false := by simp [plain.given]
  have relative : name.startsWith "/" = false := by
    rw [String.startsWith_string_eq_false_iff]
    intro starts
    exact plain.single (starts.subset (by decide))
  have fits : ¬ pathLimit ≤ name.utf8ByteSize := by
    have := plain.short
    unfold pathLimit
    omega
  have short : ¬ 255 < name.utf8ByteSize := Nat.not_lt.mpr plain.short
  have root : files.node? [] = some .directory := rfl
  simp [locate, filled, relative, fits, steps_name plain, step, root, plain.stays, short]

theorem IsName.file {name : String} (plain : IsName name) : Path.asksDirectory name = false := by
  unfold Path.asksDirectory
  rw [← String.endsWith_toSlice, String.Slice.endsWith_string_eq_false_iff, String.copy_toSlice]
  intro ends
  exact plain.single (ends.subset (by decide))

theorem IsName.held {name : String} (plain : IsName name) : name.contains '\x00' = false := by
  simp [String.contains_char_eq, plain.text]

theorem read_name {name : String} {content : Content} (plain : IsName name)
    (present : files.node? [name] = some (.file content)) : files.read name = .ok content := by
  simp [read, guarded, plain.held, locate_name files plain, present, plain.file, bind, Except.bind,
    Except.mapError]

/-- A file can be written under a name that is no directory. -/
theorem write_name {name : String} (plain : IsName name)
    (free : files.node? [name] ≠ some .directory) (content : Content) :
    files.write name content = .ok (files.set [name] (.file content)) := by
  have opens : ∃ present, files.writable name = .ok ([name], present) := by
    unfold writable
    simp only [locate_name files plain, plain.file, bind, Except.bind, Bool.false_eq_true, if_false]
    split
    case h_1 directory => exact absurd directory free
    all_goals exact ⟨_, rfl⟩
  obtain ⟨present, opens⟩ := opens
  simp only [write, guarded, plain.held, opens, bind, Except.bind, pure, Except.pure, Except.mapError,
    Bool.false_eq_true, if_false]

theorem settled_name {name : String} (plain : IsName name) : Path.settled name = [name] := by
  simp [Path.settled, steps_name plain, plain.stays]

/-- A log can be opened under a name that nothing has yet. -/
theorem openLog_name {name : String} (plain : IsName name) (free : files.node? [name] = none) :
    files.openLog name = .ok (files.set [name] (.file (.bytes .empty))) := by
  have settled : "/".intercalate (Path.settled name) = name := by
    rw [settled_name plain]
    rfl
  have opens : files.writable name = .ok ([name], none) := by
    simp [writable, locate_name files plain, plain.file, free, bind, Except.bind]
  simp [openLog, settled, plain.given, guarded, plain.held, opens, bind, Except.bind, pure, Except.pure,
    Except.mapError]

/-- A directory cannot be opened as a log. -/
theorem openLog_directory {name : String} (plain : IsName name) (there : files.node? [name] = some .directory) :
    files.openLog name = .error (.file .isDirectory (absolute name)) := by
  have settled : "/".intercalate (Path.settled name) = name := by
    rw [settled_name plain]
    rfl
  have refused : files.writable name = .error .isDirectory := by
    simp [writable, locate_name files plain, plain.file, there, bind, Except.bind]
  simp [openLog, settled, plain.given, guarded, plain.held, refused, bind, Except.bind, Except.mapError]

end Files

end ChipEight
