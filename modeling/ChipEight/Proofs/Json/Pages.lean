/-
This file shows that a value that was written over lines is read back. It has to be one that the reader
can have read: with texts for its keys, no key twice, and not too deep.
-/

import ChipEight.Proofs.Json.Characters
import ChipEight.Proofs.Json.Fractions
import ChipEight.Proofs.Value.Entries

namespace ChipEight.Json

/-! ### Pieces -/

/-- All pieces can be written. -/
def Sound (pieces : List Piece) : Prop := ∀ piece ∈ pieces, ∃ text, piece = .ok text

theorem sound_append {first second : List Piece} :
    Sound (first ++ second) ↔ Sound first ∧ Sound second := List.forall_mem_append

theorem sound_cons {piece : Piece} {rest : List Piece} :
    Sound (piece :: rest) ↔ (∃ text, piece = .ok text) ∧ Sound rest := List.forall_mem_cons

/-- The characters of the pieces that can be written. -/
def characters (pieces : List Piece) : List Char :=
  pieces.flatMap fun piece => (piece.toOption.getD "").toList

theorem characters_nil : characters [] = [] := rfl

theorem characters_cons (text : String) (rest : List Piece) :
    characters (.ok text :: rest) = text.toList ++ characters rest := rfl

theorem characters_append (first second : List Piece) :
    characters (first ++ second) = characters first ++ characters second :=
  List.flatMap_append

/-- A page holds all of its pieces if they can be written. -/
theorem upTo_written {pieces : List Piece} (text : String) (sound : Sound pieces) :
    (Page.upTo text pieces).result = .ok () ∧
      (Page.upTo text pieces).text.toList = text.toList ++ characters pieces := by
  induction pieces generalizing text with
  | nil => exact ⟨rfl, (List.append_nil _).symm⟩
  | cons piece rest ih =>
      obtain ⟨⟨more, rfl⟩, others⟩ := sound_cons.mp sound
      obtain ⟨done, shape⟩ := ih (text ++ more) others
      refine ⟨done, ?_⟩
      rw [Page.upTo, shape, characters_cons, String.toList_append, List.append_assoc]

theorem block_sound {opening closing : String} {depth : Nat} {parts : List Piece} (sound : Sound parts) :
    Sound (block opening closing depth parts) := by
  unfold block
  split
  · exact sound_cons.mpr ⟨⟨_, rfl⟩, nofun⟩
  · exact sound_append.mpr ⟨sound_cons.mpr ⟨⟨_, rfl⟩, sound⟩, sound_cons.mpr ⟨⟨_, rfl⟩, nofun⟩⟩

theorem block_begins (opening closing : String) (depth : Nat) (parts : List Piece) :
    ∃ tail, characters (block opening closing depth parts) = opening.toList ++ tail := by
  unfold block
  split
  · exact ⟨closing.toList, by simp [characters_cons, characters_nil]⟩
  · exact ⟨_, by rw [List.cons_append, characters_cons]⟩

/-! ### White space -/

/-- A text that white space before it does not belong to. -/
def Starts (text : List Char) : Prop := ∃ first tail, text = first :: tail ∧ Cursor.isSpace first = false

theorem skip_starts {position : Nat} {rest : List Char} (starts : Starts rest) :
    Cursor.skip ⟨position, rest⟩ = ⟨position, rest⟩ := by
  obtain ⟨first, tail, rfl, shown⟩ := starts
  simp [Cursor.skip, Cursor.drop, shown]

theorem skip_margin (depth position : Nat) {rest : List Char} (starts : Starts rest) :
    ∃ after, Cursor.skip ⟨position, (margin depth).toList ++ rest⟩ = ⟨after, rest⟩ := by
  have spaces : ∀ character ∈ (margin depth).toList, Cursor.isSpace character = true := by
    intro character member
    have cases : character = '\n' ∨ depth ≠ 0 ∧ character = ' ' := by
      simpa [margin] using member
    rcases cases with rfl | ⟨-, rfl⟩ <;> rfl
  obtain ⟨first, tail, rfl, shown⟩ := starts
  refine ⟨position + (margin depth).toList.length, ?_⟩
  simp [Cursor.skip, Cursor.drop, List.takeWhile_append_of_pos spaces, shown]

/-! ### Reading values -/

mutual
/-- A value that a text can give back: numbers that are shown, texts without lone halves of a pair next to
one another, mappings with texts for their keys and none of them twice, and collections no deeper than
there is room. -/
def Readable (room : Nat) : Value → Prop
  | .null => True
  | .bool _ => True
  | .int number => number.natAbs < Numeral.firstUnshown
  | .float number => number.isNan = true → number = .nan
  | .date _ => False
  | .moment _ => False
  | .text characters => Unpaired characters.toList
  | .list items => 0 < room ∧ ReadableItems (room - 1) items
  | .dict entries => 0 < room ∧ (Entries.names entries).Nodup ∧ ReadableEntries (room - 1) entries

def ReadableItems (room : Nat) : List Value → Prop
  | [] => True
  | item :: rest => Readable room item ∧ ReadableItems room rest

def ReadableEntries (room : Nat) : List (Key × Value) → Prop
  | [] => True
  | (key, value) :: rest => (∃ name, key = .text name ∧ Unpaired name.toList) ∧ Readable room value ∧
      ReadableEntries room rest
end

/-- A number that can be shown is a piece. -/
theorem numberPiece_short {number : Int} (short : number.natAbs < Numeral.firstUnshown) :
    numberPiece number = .ok (toString number) := if_pos short

/-- An item of a list is written behind its separator. -/
theorem characters_item {room depth : Nat} {first : Bool} {item : Value} (others : List Value)
    (readable : Readable room item) :
    characters (itemPieces depth first (item :: others)) =
      (separator depth first).toList ++ (characters (pieces depth item) ++
        characters (itemPieces depth false others)) := by
  cases item
  case int number =>
    rw [itemPieces, pieces, numberPiece_short readable]
    simp [Except.map, characters_cons, characters_nil]
  all_goals
    simp only [itemPieces, List.cons_append, characters_cons, characters_append]

/-- A value of a mapping is written behind its name. -/
theorem characters_entry (depth : Nat) (first : Bool) (name : String) (value : Value) (others : Entries) :
    characters (entryPieces depth first ((.text name, value) :: others)) =
      (separator depth first).toList ++ ((writtenText true name).toList ++ (':' :: ' ' ::
        (characters (pieces depth value) ++ characters (entryPieces depth false others)))) := by
  simp [entryPieces, keyPiece, keyText, Except.map, characters_cons, characters_append]

theorem characters_block (opening closing : String) (depth : Nat) {parts : List Piece}
    (filled : parts ≠ []) :
    characters (block opening closing depth parts) =
      opening.toList ++ (characters parts ++ ((margin depth).toList ++ closing.toList)) := by
  have some : parts.isEmpty = false := by simpa using filled
  simp [block, some, characters_cons, characters_append, characters_nil]

mutual
/-- A value that can be read can be written. -/
theorem pieces_sound (value : Value) (depth : Nat) {room : Nat} (readable : Readable room value) :
    Sound (pieces depth value) := by
  have single (text : String) : Sound [.ok text] := sound_cons.mpr ⟨⟨text, rfl⟩, nofun⟩
  cases value with
  | null | bool _ | float _ | text _ => exact single _
  | int number =>
      rw [pieces, numberPiece_short readable]
      exact single _
  | date _ | moment _ => exact readable.elim
  | list items => exact block_sound (itemPieces_sound items _ _ readable.2)
  | dict entries => exact block_sound (entryPieces_sound entries _ _ readable.2.2)

theorem itemPieces_sound (items : List Value) (depth : Nat) (first : Bool) {room : Nat}
    (readable : ReadableItems room items) : Sound (itemPieces depth first items) := by
  cases items with
  | nil => exact nofun
  | cons item others =>
      have here := pieces_sound item depth readable.1
      have there := itemPieces_sound others depth false readable.2
      cases item
      case int number =>
        rw [itemPieces, numberPiece_short readable.1]
        exact sound_cons.mpr ⟨⟨_, rfl⟩, there⟩
      all_goals
        exact sound_cons.mpr ⟨⟨_, rfl⟩, sound_append.mpr ⟨here, there⟩⟩

theorem entryPieces_sound (entries : Entries) (depth : Nat) (first : Bool) {room : Nat}
    (readable : ReadableEntries room entries) : Sound (entryPieces depth first entries) := by
  cases entries with
  | nil => exact nofun
  | cons entry others =>
      obtain ⟨key, value⟩ := entry
      obtain ⟨⟨name, rfl, -⟩, here, there⟩ := readable
      exact sound_cons.mpr ⟨⟨_, rfl⟩,
        sound_append.mpr ⟨pieces_sound value depth here, entryPieces_sound others depth false there⟩⟩
end

/-- A character that neither space, nor text, nor a collection starts or ends with. -/
def IsScalar (first : Char) : Prop :=
  first ∉ ['\x22', '\x7b', '\x7d', '[', ']', ' ', '\n', '\t', '\r']

instance (first : Char) : Decidable (IsScalar first) := inferInstanceAs (Decidable (_ ∉ _))

theorem isScalar_of_digit {first : Char} (digit : isDigit first = true) : IsScalar first := by
  intro member
  have other : ['\x22', '\x7b', '\x7d', '[', ']', ' ', '\n', '\t', '\r'].all (!isDigit ·) = true := by
    decide
  exact nomatch (List.all_eq_true.mp other first member).symm.trans (congrArg not digit)

theorem value_scalar (fuel room position : Nat) {first : Char} {tail : List Char}
    (begins : IsScalar first) :
    value (fuel + 1) room ⟨position, first :: tail⟩ = scalar ⟨position, first :: tail⟩ := by
  simp only [IsScalar, List.mem_cons, not_or] at begins
  rw [value]
  split <;> simp_all

/-- A value without parts of its own is read by the first of its characters. -/
theorem value_leaf {fuel : Nat} (room position : Nat) {text rest : List Char} {result : Value}
    (begins : ∃ first tail, text = first :: tail ∧ IsScalar first)
    (reads : ∃ after, scalar ⟨position, text ++ rest⟩ = .ok (result, ⟨after, rest⟩))
    (enough : 2 * text.length ≤ fuel) :
    ∃ after, value fuel room ⟨position, text ++ rest⟩ = .ok (result, ⟨after, rest⟩) := by
  obtain ⟨first, tail, rfl, shown⟩ := begins
  rw [List.length_cons] at enough
  obtain ⟨more, rfl⟩ : ∃ more, fuel = more + 1 := Nat.exists_eq_succ_of_ne_zero (by omega)
  rw [List.cons_append, value_scalar more room position shown]
  exact reads

theorem whole_begins (number : Int) :
    ∃ first tail, (toString number).toList = first :: tail ∧ IsScalar first := by
  rw [← Figures.text_ofInt]
  obtain ⟨first, others, shape, digit⟩ := Figures.whole_start (Figures.ofInt_sound number)
  unfold Figures.text Figures.signText
  rw [shape]
  split
  · exact ⟨'-', _, rfl, by decide⟩
  · exact ⟨first, _, rfl, isScalar_of_digit digit⟩

theorem broken_begins {number : Double} (proper : number.isNan = true → number = .nan) :
    ∃ first tail, (writtenNumber number).toList = first :: tail ∧ IsScalar first := by
  obtain ⟨first, tail, shape, rfl | rfl | rfl | digit⟩ := (rereads proper).begins
  · exact ⟨_, tail, shape, by decide⟩
  · exact ⟨_, tail, shape, by decide⟩
  · exact ⟨_, tail, shape, by decide⟩
  · exact ⟨first, tail, shape, isScalar_of_digit digit⟩

theorem scalar_whole {number : Int} (short : number.natAbs < Numeral.firstUnshown) (position : Nat)
    {rest : List Char} (stops : Stops rest) :
    ∃ after, scalar ⟨position, (toString number).toList ++ rest⟩ =
      .ok (.int number, ⟨after, rest⟩) := by
  rw [← Figures.text_ofInt]
  exact ⟨_, Figures.scalar_text (Figures.ofInt_sound number) stops (Figures.value_ofInt short)⟩

/-- What a value begins with is no space, and closes no collection. -/
theorem characters_begin {room : Nat} (depth : Nat) {value : Value} (readable : Readable room value) :
    ∃ first tail, characters (pieces depth value) = first :: tail ∧ first ≠ ']' ∧ first ≠ '\x7d' ∧
      Cursor.isSpace first = false := by
  have leaf {text : List Char} (begins : ∃ first tail, text = first :: tail ∧ IsScalar first) :
      ∃ first tail, text = first :: tail ∧ first ≠ ']' ∧ first ≠ '\x7d' ∧
        Cursor.isSpace first = false := by
    obtain ⟨first, tail, shape, shown⟩ := begins
    simp only [IsScalar, List.mem_cons, not_or] at shown
    refine ⟨first, tail, shape, ?_, ?_, ?_⟩
    · simp [shown]
    · simp [shown]
    · simp [Cursor.isSpace, shown]
  cases value with
  | null => exact ⟨'n', _, rfl, by decide, by decide, by decide⟩
  | bool flag => cases flag <;> exact ⟨_, _, rfl, by decide, by decide, by decide⟩
  | int number =>
      rw [pieces, numberPiece_short readable, characters_cons, characters_nil, List.append_nil]
      exact leaf (whole_begins number)
  | float number =>
      rw [pieces, characters_cons, characters_nil, List.append_nil]
      exact leaf (broken_begins readable)
  | date _ | moment _ => exact readable.elim
  | text content =>
      rw [pieces, characters_cons, writtenText, String.toList_ofList]
      exact ⟨'\x22', _, rfl, by decide, by decide, by decide⟩
  | list items =>
      obtain ⟨tail, shape⟩ := block_begins "[" "]" depth (itemPieces (depth + 1) true items)
      exact ⟨'[', tail, shape, by decide, by decide, by decide⟩
  | dict entries =>
      obtain ⟨tail, shape⟩ := block_begins "\x7b" "\x7d" depth (entryPieces (depth + 1) true entries)
      exact ⟨'\x7b', tail, shape, by decide, by decide, by decide⟩

theorem characters_starts {room : Nat} (depth : Nat) {value : Value} (rest : List Char)
    (readable : Readable room value) : Starts (characters (pieces depth value) ++ rest) := by
  obtain ⟨first, tail, shape, -, -, shown⟩ := characters_begin depth readable
  exact ⟨first, tail ++ rest, by rw [shape]; rfl, shown⟩

/-- The items of a list without the white space before the first. -/
def itemsBody (depth : Nat) : List Value → List Char
  | [] => []
  | item :: others => characters (pieces depth item) ++ characters (itemPieces depth false others)

/-- The end of a list, on a line of its own. -/
def closing (depth : Nat) (mark : Char) (rest : List Char) : List Char :=
  (margin depth).toList ++ mark :: rest

theorem closing_stops (depth : Nat) (mark : Char) (rest : List Char) : Stops (closing depth mark rest) := by
  rintro first tail shape
  have start : closing depth mark rest = '\n' :: (List.replicate (2 * depth) ' ' ++ mark :: rest) := by
    simp [closing, margin]
  rw [start] at shape
  cases shape
  exact .inr rfl

/-- What stands before an item of a list but the first, or before a later entry of a mapping. -/
theorem separator_later (depth : Nat) : (separator depth false).toList = ',' :: (margin depth).toList := by
  simp [separator]

theorem separator_first (depth : Nat) : (separator depth true).toList = (margin depth).toList := by
  simp [separator]

theorem skip_closing (depth position : Nat) (mark : Char) (rest : List Char)
    (shown : Cursor.isSpace mark = false) :
    ∃ after, Cursor.skip ⟨position, closing depth mark rest⟩ = ⟨after, mark :: rest⟩ :=
  skip_margin depth position ⟨mark, rest, rfl, shown⟩

/-! ### Lists -/

section

variable {depth outer room fuel position middle : Nat} {read : List Value} {item : Value}
  {text more rest : List Char} {result : Value}

/-- The last item of a list is followed by its end. -/
theorem items_last
    (reads : value fuel room ⟨position, text⟩ = .ok (item, ⟨middle, closing outer ']' rest⟩)) :
    ∃ after, items (fuel + 1) room read ⟨position, text⟩ =
      .ok (.list (read.reverse ++ [item]), ⟨after, rest⟩) := by
  obtain ⟨last, skipped⟩ := skip_closing outer middle ']' rest rfl
  refine ⟨last + 1, ?_⟩
  rw [items, reads]
  simp only [bind, Except.bind, skipped, List.reverse_cons]
  rfl

/-- An item that is followed by another one. -/
theorem items_next
    (reads : value fuel room ⟨position, text⟩ =
      .ok (item, ⟨middle, (separator depth false).toList ++ more⟩)) (starts : Starts more)
    (later : ∀ position, ∃ after, items fuel room (item :: read) ⟨position, more⟩ =
      .ok (result, ⟨after, rest⟩)) :
    ∃ after, items (fuel + 1) room read ⟨position, text⟩ = .ok (result, ⟨after, rest⟩) := by
  rw [separator_later] at reads
  obtain ⟨next, skipped⟩ := skip_margin depth (middle + 1) starts
  obtain ⟨after, others⟩ := later next
  refine ⟨after, ?_⟩
  rw [items, reads]
  have comma : Cursor.skip ⟨middle, ',' :: ((margin depth).toList ++ more)⟩ =
      ⟨middle, ',' :: ((margin depth).toList ++ more)⟩ := skip_starts ⟨',', _, rfl, rfl⟩
  simp only [bind, Except.bind, List.cons_append, comma, Cursor.drop, List.drop_succ_cons,
    List.drop_zero, skipped, others]

theorem value_empty (fuel room position : Nat) (rest : List Char) (roomy : 0 < room) :
    ∃ after, value (fuel + 1) room ⟨position, '[' :: ']' :: rest⟩ = .ok (.list [], ⟨after, rest⟩) := by
  have some : (room == 0) = false := by simp; omega
  refine ⟨position + 2, ?_⟩
  rw [value]
  simp only [some]
  rfl

/-- A list with items is read from its first item on. -/
theorem value_list {depth : Nat} (starts : Starts more)
    (filled : ∃ first tail, more = first :: tail ∧ first ≠ ']') (roomy : 0 < room)
    (reads : ∀ position, ∃ after, items fuel (room - 1) [] ⟨position, more⟩ = .ok (result, ⟨after, rest⟩)) :
    ∃ after, value (fuel + 1) room ⟨position, '[' :: ((margin depth).toList ++ more)⟩ =
      .ok (result, ⟨after, rest⟩) := by
  obtain ⟨next, skipped⟩ := skip_margin depth (position + 1) starts
  obtain ⟨after, others⟩ := reads next
  refine ⟨after, ?_⟩
  obtain ⟨first, tail, rfl, other⟩ := filled
  have some : (room == 0) = false := by simp; omega
  rw [value]
  simp only [Cursor.drop, List.drop_succ_cons, List.drop_zero, skipped, some, Bool.false_eq_true, if_false]
  split
  case h_1 shape =>
    cases shape
    exact absurd rfl other
  case h_2 => exact others

end

/-! ### Mappings -/

section

variable {depth outer room fuel position middle : Nat} {read : Entries} {name : String} {item : Value}
  {text more rest : List Char} {result : Value}

/-- Only a text is the same key as a text. -/
theorem same_text {key : Key} {name : String} (other : Key.text name ≠ key) :
    key.same (.text name) = false := by
  unfold Key.same
  rw [beq_eq_false_iff_ne]
  cases key
  case text characters =>
    intro same
    cases same
    exact other rfl
  case float number | moment time =>
    simp only [Key.face]
    split <;> simp
  all_goals simp [Key.face]

/-- A name that is not there yet is put behind the others. -/
theorem put_new (entries : Entries) {name : String} (value : Value)
    (new : Key.text name ∉ Entries.names entries) :
    Entries.put entries (.text name) value = entries ++ [(.text name, value)] := by
  induction entries with
  | nil => rfl
  | cons entry rest ih =>
      obtain ⟨key, old⟩ := entry
      obtain ⟨other, others⟩ := List.ne_and_not_mem_of_not_mem_cons new
      rw [Entries.put, same_text other, ih others]
      rfl

theorem skip_blank (position : Nat) (starts : Starts more) :
    Cursor.skip ⟨position, ' ' :: more⟩ = ⟨position + 1, more⟩ := by
  obtain ⟨first, tail, rfl, shown⟩ := starts
  have space : Cursor.isSpace ' ' = true := rfl
  simp [Cursor.skip, Cursor.drop, shown, space]

/-- A name is read up to the value behind it. -/
theorem name_written (position : Nat) (unpaired : Unpaired name.toList)
    (enough : name.toList.length < fuel) (starts : Starts more) :
    ∃ body after, (writtenText true name).toList ++ ':' :: ' ' :: more = '\x22' :: body ∧
      quotedText fuel ⟨position, '\x22' :: body⟩ = .ok (name, ⟨after, ':' :: ' ' :: more⟩) ∧
      Cursor.skip ⟨after, ':' :: ' ' :: more⟩ = ⟨after, ':' :: ' ' :: more⟩ ∧
      Cursor.skip ⟨after + 1, ' ' :: more⟩ = ⟨after + 2, more⟩ := by
  obtain ⟨after, named⟩ := quotedText_written position (':' :: ' ' :: more) unpaired enough
  obtain ⟨body, shape⟩ : ∃ body, (writtenText true name).toList ++ ':' :: ' ' :: more = '\x22' :: body :=
    ⟨_, by simp [writtenText]; rfl⟩
  rw [shape] at named
  exact ⟨body, after, shape, named, skip_starts ⟨':', _, rfl, rfl⟩, skip_blank (after + 1) starts⟩

/-- The last entry of a mapping is followed by its end. -/
theorem entries_last (unpaired : Unpaired name.toList) (enough : name.toList.length < fuel)
    (starts : Starts more)
    (reads : ∀ position, ∃ after, value fuel room ⟨position, more⟩ =
      .ok (item, ⟨after, closing outer '\x7d' rest⟩)) :
    ∃ after, entries (fuel + 1) room read
        ⟨position, (writtenText true name).toList ++ ':' :: ' ' :: more⟩ =
      .ok (.dict (Entries.put read (.text name) item), ⟨after, rest⟩) := by
  obtain ⟨body, after, shape, named, colon, blank⟩ := name_written position unpaired enough starts
  obtain ⟨middle, given⟩ := reads (after + 2)
  obtain ⟨last, skipped⟩ := skip_closing outer middle '\x7d' rest rfl
  refine ⟨last + 1, ?_⟩
  rw [shape, entries]
  simp only [named, bind, Except.bind, colon, Cursor.drop, List.drop_succ_cons, List.drop_zero, blank,
    given, skipped]

/-- An entry that is followed by another one. -/
theorem entries_next {others : List Char} (unpaired : Unpaired name.toList)
    (enough : name.toList.length < fuel) (starts : Starts more)
    (reads : ∀ position, ∃ after, value fuel room ⟨position, more⟩ =
      .ok (item, ⟨after, (separator depth false).toList ++ others⟩)) (again : Starts others)
    (later : ∀ position, ∃ after, entries fuel room (Entries.put read (.text name) item)
      ⟨position, others⟩ = .ok (result, ⟨after, rest⟩)) :
    ∃ after, entries (fuel + 1) room read
        ⟨position, (writtenText true name).toList ++ ':' :: ' ' :: more⟩ =
      .ok (result, ⟨after, rest⟩) := by
  obtain ⟨body, afterName, shape, named, colon, blank⟩ := name_written position unpaired enough starts
  obtain ⟨middle, given⟩ := reads (afterName + 2)
  rw [separator_later] at given
  obtain ⟨next, skipped⟩ := skip_margin depth (middle + 1) again
  obtain ⟨after, remaining⟩ := later next
  have comma : Cursor.skip ⟨middle, ',' :: ((margin depth).toList ++ others)⟩ =
      ⟨middle, ',' :: ((margin depth).toList ++ others)⟩ := skip_starts ⟨',', _, rfl, rfl⟩
  refine ⟨after, ?_⟩
  rw [shape, entries]
  simp only [named, bind, Except.bind, colon, Cursor.drop, List.drop_succ_cons, List.drop_zero, blank,
    given, List.cons_append, comma, skipped, remaining]

theorem value_bare (fuel room position : Nat) (rest : List Char) (roomy : 0 < room) :
    ∃ after, value (fuel + 1) room ⟨position, '\x7b' :: '\x7d' :: rest⟩ =
      .ok (.dict [], ⟨after, rest⟩) := by
  have some : (room == 0) = false := by simp; omega
  refine ⟨position + 2, ?_⟩
  rw [value]
  simp only [some]
  rfl

/-- A mapping with entries is read from its first name on. -/
theorem value_dict {depth : Nat} (starts : Starts more)
    (filled : ∃ first tail, more = first :: tail ∧ first ≠ '\x7d') (roomy : 0 < room)
    (reads : ∀ position, ∃ after, entries fuel (room - 1) [] ⟨position, more⟩ =
      .ok (result, ⟨after, rest⟩)) :
    ∃ after, value (fuel + 1) room ⟨position, '\x7b' :: ((margin depth).toList ++ more)⟩ =
      .ok (result, ⟨after, rest⟩) := by
  obtain ⟨next, skipped⟩ := skip_margin depth (position + 1) starts
  obtain ⟨after, others⟩ := reads next
  refine ⟨after, ?_⟩
  obtain ⟨first, tail, rfl, other⟩ := filled
  have some : (room == 0) = false := by simp; omega
  rw [value]
  simp only [Cursor.drop, List.drop_succ_cons, List.drop_zero, skipped, some, Bool.false_eq_true, if_false]
  split
  case h_1 shape =>
    cases shape
    exact absurd rfl other
  case h_2 => exact others

end

/-! ### Whole values -/

/-- Each character takes at least one, and the quotes take two. -/
theorem writtenText_length (text : String) :
    text.toList.length + 2 ≤ (writtenText true text).toList.length := by
  have each (characters : List Char) :
      characters.length ≤ (characters.flatMap (writtenCharacter true)).length := by
    induction characters with
    | nil => exact Nat.le_refl 0
    | cons first rest ih =>
        have some := (writtenCharacter_written first).length_pos
        rw [List.flatMap_cons, List.length_append, List.length_cons]
        omega
  have all := each text.toList
  simp only [writtenText, String.toList_ofList, List.length_append, List.length_cons,
    List.length_nil, List.cons_append]
  omega

theorem value_text {fuel : Nat} (room position : Nat) {text : String} (rest : List Char)
    (unpaired : Unpaired text.toList) (enough : text.toList.length < fuel) :
    ∃ after, value (fuel + 1) room ⟨position, (writtenText true text).toList ++ rest⟩ =
      .ok (.text text, ⟨after, rest⟩) := by
  obtain ⟨after, reads⟩ := quotedText_written position rest unpaired enough
  obtain ⟨body, shape⟩ : ∃ body, (writtenText true text).toList ++ rest = '\x22' :: body :=
    ⟨_, by simp [writtenText]; rfl⟩
  rw [shape] at reads ⊢
  exact ⟨after, by rw [value, reads]; rfl⟩

/-- The entries of a mapping without the white space before the first. -/
def entriesBody (depth : Nat) : Entries → List Char
  | [] => []
  | (key, value) :: others => (writtenText true (keyText key)).toList ++ ':' :: ' ' ::
      (characters (pieces depth value) ++ characters (entryPieces depth false others))

theorem itemsBody_eq {room : Nat} (depth : Nat) (first : Bool) {items : List Value} (filled : items ≠ [])
    (readable : ReadableItems room items) :
    characters (itemPieces depth first items) = (separator depth first).toList ++ itemsBody depth items := by
  cases items with
  | nil => exact absurd rfl filled
  | cons item others => exact characters_item others readable.1

theorem itemsBody_starts {room : Nat} (depth : Nat) {items : List Value} (filled : items ≠ [])
    (readable : ReadableItems room items) (rest : List Char) :
    Starts (itemsBody depth items ++ rest) ∧
      ∃ first tail, itemsBody depth items ++ rest = first :: tail ∧ first ≠ ']' := by
  cases items with
  | nil => exact absurd rfl filled
  | cons item others =>
      obtain ⟨first, tail, shape, other, -, shown⟩ := characters_begin depth readable.1
      rw [itemsBody, shape]
      exact ⟨⟨first, _, rfl, shown⟩, first, _, rfl, other⟩

/-- Behind an item there is the separator of the next one, or the end of the list. -/
theorem items_stop {room : Nat} (depth outer : Nat) {others : List Value} (rest : List Char)
    (readable : ReadableItems room others) :
    Stops (characters (itemPieces depth false others) ++ closing outer ']' rest) := by
  cases others with
  | nil => exact closing_stops outer ']' rest
  | cons second others =>
      rw [itemsBody_eq depth false (by simp) readable, separator_later]
      rintro first tail ⟨⟩
      exact .inl rfl

theorem itemPieces_filled {depth : Nat} {first : Bool} {items : List Value} (filled : items ≠ []) :
    itemPieces depth first items ≠ [] := by
  cases items with
  | nil => exact absurd rfl filled
  | cons item others => cases item <;> simp [itemPieces]

theorem entryPieces_filled {depth : Nat} {first : Bool} {entries : Entries} (filled : entries ≠ []) :
    entryPieces depth first entries ≠ [] := by
  cases entries with
  | nil => exact absurd rfl filled
  | cons entry others => simp [entryPieces]

theorem entriesBody_eq {room : Nat} (depth : Nat) (first : Bool) {entries : Entries}
    (filled : entries ≠ []) (readable : ReadableEntries room entries) :
    characters (entryPieces depth first entries) =
      (separator depth first).toList ++ entriesBody depth entries := by
  cases entries with
  | nil => exact absurd rfl filled
  | cons entry others =>
      obtain ⟨key, value⟩ := entry
      obtain ⟨⟨name, rfl, -⟩, -⟩ := readable
      exact characters_entry depth first name value others

theorem entriesBody_starts {depth : Nat} {entries : Entries} (filled : entries ≠ [])
    (rest : List Char) :
    Starts (entriesBody depth entries ++ rest) ∧
      ∃ first tail, entriesBody depth entries ++ rest = first :: tail ∧ first ≠ '\x7d' := by
  cases entries with
  | nil => exact absurd rfl filled
  | cons entry others =>
      obtain ⟨tail, shape⟩ : ∃ tail, entriesBody depth (entry :: others) ++ rest = '\x22' :: tail :=
        ⟨_, by simp [entriesBody, writtenText]; rfl⟩
      exact ⟨⟨'\x22', tail, shape, rfl⟩, '\x22', tail, shape, by decide⟩

/-- Behind a value there is the separator of the next entry, or the end of the mapping. -/
theorem entries_stop {room : Nat} (depth outer : Nat) {others : Entries} (rest : List Char)
    (readable : ReadableEntries room others) :
    Stops (characters (entryPieces depth false others) ++ closing outer '\x7d' rest) := by
  cases others with
  | nil => exact closing_stops outer '\x7d' rest
  | cons second others =>
      rw [entriesBody_eq depth false (by simp) readable, separator_later]
      rintro first tail ⟨⟩
      exact .inl rfl

/-- A list is read as it was written if its items are. -/
theorem list_written {items : List Value} {depth room fuel : Nat} (position : Nat) {rest : List Char}
    (readable : Readable room (.list items))
    (enough : 2 * (characters (pieces depth (.list items))).length ≤ fuel)
    (reads : items ≠ [] → ∀ fuel position : Nat, 2 * (itemsBody (depth + 1) items).length < fuel →
      ∃ after, Json.items fuel (room - 1) [] ⟨position, itemsBody (depth + 1) items ++ closing depth ']' rest⟩ =
        .ok (.list items, ⟨after, rest⟩)) :
    ∃ after, Json.value fuel room ⟨position, characters (pieces depth (.list items)) ++ rest⟩ =
      .ok (.list items, ⟨after, rest⟩) := by
  obtain ⟨roomy, readable⟩ := readable
  rw [pieces] at enough ⊢
  by_cases filled : items = []
  · subst filled
    have shape : characters (block "[" "]" depth (itemPieces (depth + 1) true [])) = ['[', ']'] := rfl
    rw [shape] at enough ⊢
    obtain ⟨more, rfl⟩ : ∃ more, fuel = more + 1 := Nat.exists_eq_succ_of_ne_zero (by
      rintro rfl
      cases enough)
    exact value_empty more room position rest roomy
  · have opens : "[".toList = ['['] := rfl
    rw [characters_block _ _ _ (itemPieces_filled filled), itemsBody_eq _ _ filled readable,
      separator_first, opens] at enough ⊢
    simp only [List.length_append, List.length_singleton] at enough
    obtain ⟨more, rfl⟩ : ∃ more, fuel = more + 1 := Nat.exists_eq_succ_of_ne_zero (by omega)
    obtain ⟨starts, other⟩ := itemsBody_starts (depth + 1) filled readable (closing depth ']' rest)
    rw [← List.singleton_append]
    simpa [closing] using value_list starts other roomy fun position =>
      reads filled more position (by omega)

/-- A mapping is read as it was written if its entries are. -/
theorem dict_written {entries : Entries} {depth room fuel : Nat} (position : Nat) {rest : List Char}
    (readable : Readable room (.dict entries))
    (enough : 2 * (characters (pieces depth (.dict entries))).length ≤ fuel)
    (reads : entries ≠ [] → ∀ fuel position : Nat, 2 * (entriesBody (depth + 1) entries).length < fuel →
      ∃ after, Json.entries fuel (room - 1) []
          ⟨position, entriesBody (depth + 1) entries ++ closing depth '\x7d' rest⟩ =
        .ok (.dict entries, ⟨after, rest⟩)) :
    ∃ after, Json.value fuel room ⟨position, characters (pieces depth (.dict entries)) ++ rest⟩ =
      .ok (.dict entries, ⟨after, rest⟩) := by
  obtain ⟨roomy, -, readable⟩ := readable
  rw [pieces] at enough ⊢
  by_cases filled : entries = []
  · subst filled
    have shape : characters (block "\x7b" "\x7d" depth (entryPieces (depth + 1) true [])) =
        ['\x7b', '\x7d'] := rfl
    rw [shape] at enough ⊢
    obtain ⟨more, rfl⟩ : ∃ more, fuel = more + 1 := Nat.exists_eq_succ_of_ne_zero (by
      rintro rfl
      cases enough)
    exact value_bare more room position rest roomy
  · have opens : "\x7b".toList = ['\x7b'] := rfl
    rw [characters_block _ _ _ (entryPieces_filled filled), entriesBody_eq _ _ filled readable,
      separator_first, opens] at enough ⊢
    simp only [List.length_append, List.length_singleton] at enough
    obtain ⟨more, rfl⟩ : ∃ more, fuel = more + 1 := Nat.exists_eq_succ_of_ne_zero (by omega)
    obtain ⟨starts, other⟩ := entriesBody_starts filled (closing depth '\x7d' rest)
    rw [← List.singleton_append]
    simpa [closing] using value_dict starts other roomy fun position =>
      reads filled more position (by omega)

mutual
/-- A value is read as it was written. -/
theorem value_written (value : Value) {depth room fuel : Nat} (position : Nat) {rest : List Char}
    (readable : Readable room value) (stops : Stops rest)
    (enough : 2 * (characters (pieces depth value)).length ≤ fuel) :
    ∃ after, Json.value fuel room ⟨position, characters (pieces depth value) ++ rest⟩ =
      .ok (value, ⟨after, rest⟩) := by
  cases value with
  | null => exact value_leaf room position ⟨'n', _, rfl, by decide⟩ ⟨position + 4, rfl⟩ enough
  | bool flag =>
      cases flag
      · exact value_leaf room position ⟨'f', _, rfl, by decide⟩ ⟨position + 5, rfl⟩ enough
      · exact value_leaf room position ⟨'t', _, rfl, by decide⟩ ⟨position + 4, rfl⟩ enough
  | int number =>
      rw [pieces, numberPiece_short readable, characters_cons, characters_nil, List.append_nil] at enough ⊢
      exact value_leaf room position (whole_begins number) (scalar_whole readable position stops) enough
  | float number =>
      rw [pieces, characters_cons, characters_nil, List.append_nil] at enough ⊢
      exact value_leaf room position (broken_begins readable) ((rereads readable).reads position stops) enough
  | date day => exact readable.elim
  | moment time => exact readable.elim
  | text content =>
      rw [pieces, characters_cons, characters_nil, List.append_nil] at enough ⊢
      have longer := writtenText_length content
      obtain ⟨more, rfl⟩ : ∃ more, fuel = more + 1 := Nat.exists_eq_succ_of_ne_zero (by omega)
      exact value_text room position rest readable (by omega)
  | list items =>
      exact list_written position readable enough fun filled _ position shorter =>
        items_written items position [] rest filled readable.2 shorter
  | dict entries =>
      exact dict_written position readable enough fun filled _ position shorter =>
        entries_written entries position [] rest filled readable.2.1 readable.2.2 shorter

/-- The items of a list are read up to its end. -/
theorem items_written (items : List Value) {depth outer room fuel : Nat} (position : Nat)
    (read : List Value) (rest : List Char) (filled : items ≠ []) (readable : ReadableItems room items)
    (enough : 2 * (itemsBody depth items).length < fuel) :
    ∃ after, Json.items fuel room read ⟨position, itemsBody depth items ++ closing outer ']' rest⟩ =
      .ok (.list (read.reverse ++ items), ⟨after, rest⟩) := by
  cases items with
  | nil => exact absurd rfl filled
  | cons item others =>
      obtain ⟨fuel, rfl⟩ : ∃ more, fuel = more + 1 := Nat.exists_eq_succ_of_ne_zero (by omega)
      rw [itemsBody, List.length_append] at enough
      obtain ⟨middle, now⟩ : ∃ after, value fuel room ⟨position, characters (pieces depth item) ++
          (characters (itemPieces depth false others) ++ closing outer ']' rest)⟩ =
            .ok (item, ⟨after, characters (itemPieces depth false others) ++ closing outer ']' rest⟩) :=
        value_written item position readable.1 (items_stop depth outer rest readable.2) (by omega)
      rw [itemsBody, List.append_assoc]
      by_cases last : others = []
      · subst last
        exact items_last now
      · rw [itemsBody_eq depth false last readable.2] at now enough ⊢
        rw [List.append_assoc] at now ⊢
        have shorter : 2 * (itemsBody depth others).length < fuel := by
          rw [separator_later, List.length_append, List.length_cons] at enough
          omega
        have later (position : Nat) : ∃ after, items fuel room (item :: read)
            ⟨position, itemsBody depth others ++ closing outer ']' rest⟩ =
              .ok (.list (read.reverse ++ item :: others), ⟨after, rest⟩) := by
          rw [List.append_cons, ← List.reverse_cons]
          exact items_written others position (item :: read) rest last readable.2 shorter
        exact items_next now (itemsBody_starts depth last readable.2 _).1 later

/-- The entries of a mapping are read up to its end. -/
theorem entries_written (entries : Entries) {depth outer room fuel : Nat} (position : Nat)
    (read : Entries) (rest : List Char) (filled : entries ≠ [])
    (single : (Entries.names (read ++ entries)).Nodup) (readable : ReadableEntries room entries)
    (enough : 2 * (entriesBody depth entries).length < fuel) :
    ∃ after, Json.entries fuel room read
        ⟨position, entriesBody depth entries ++ closing outer '\x7d' rest⟩ =
      .ok (.dict (read ++ entries), ⟨after, rest⟩) := by
  cases entries with
  | nil => exact absurd rfl filled
  | cons entry others =>
      obtain ⟨key, item⟩ := entry
      obtain ⟨⟨name, rfl, unpaired⟩, readable, remaining⟩ := readable
      obtain ⟨fuel, rfl⟩ : ∃ more, fuel = more + 1 := Nat.exists_eq_succ_of_ne_zero (by omega)
      have longer := writtenText_length name
      simp only [entriesBody, keyText, List.length_append, List.length_cons] at enough
      have grown : read ++ (.text name, item) :: others = read ++ [(.text name, item)] ++ others :=
        List.append_cons read (.text name, item) others
      have new : Key.text name ∉ Entries.names read := by
        unfold Entries.names at single ⊢
        rw [List.map_append, List.map_cons] at single
        exact fun before => (List.nodup_append.mp single).2.2 _ before _ List.mem_cons_self rfl
      have now (position : Nat) : ∃ after, value fuel room ⟨position, characters (pieces depth item) ++
          (characters (entryPieces depth false others) ++ closing outer '\x7d' rest)⟩ =
            .ok (item, ⟨after, characters (entryPieces depth false others) ++ closing outer '\x7d' rest⟩) :=
        value_written item position readable (entries_stop depth outer rest remaining) (by omega)
      have starts := characters_starts depth
        (characters (entryPieces depth false others) ++ closing outer '\x7d' rest) readable
      rw [entriesBody, keyText, List.append_assoc, List.cons_append, List.cons_append, List.append_assoc]
      by_cases last : others = []
      · subst last
        rw [← put_new read item new]
        exact entries_last unpaired (by omega) starts now
      · rw [entriesBody_eq depth false last remaining] at now enough starts ⊢
        simp only [List.append_assoc] at now starts ⊢
        have shorter : 2 * (entriesBody depth others).length < fuel := by
          rw [separator_later, List.length_append, List.length_cons] at enough
          omega
        have later (position : Nat) : ∃ after, Json.entries fuel room
            (Entries.put read (.text name) item)
            ⟨position, entriesBody depth others ++ closing outer '\x7d' rest⟩ =
              .ok (.dict (read ++ (.text name, item) :: others), ⟨after, rest⟩) := by
          rw [put_new read item new, grown]
          exact entries_written others position (read ++ [(.text name, item)]) rest last
            (grown ▸ single) remaining shorter
        exact entries_next unpaired (by omega) starts now (entriesBody_starts last _).1 later
end

/-! ### Plain pages -/

theorem margin_plain (depth : Nat) : Plain (margin depth).toList := by
  intro character member
  have cases : character = '\n' ∨ depth ≠ 0 ∧ character = ' ' := by
    simpa [margin] using member
  rcases cases with rfl | ⟨-, rfl⟩ <;> decide

theorem separator_plain (depth : Nat) (first : Bool) : Plain (separator depth first).toList := by
  cases first
  · rw [separator_later]
    exact Plain.append (show Plain [','] by decide) (margin_plain depth)
  · rw [separator_first]
    exact margin_plain depth

theorem whole_plain (number : Int) : Plain (toString number).toList := by
  rw [← Figures.text_ofInt]
  exact Figures.text_plain (Figures.ofInt_sound number)

theorem block_plain {opening closing : String} {depth : Nat} {parts : List Piece}
    (opens : Plain opening.toList) (closes : Plain closing.toList) (inner : Plain (characters parts)) :
    Plain (characters (block opening closing depth parts)) := by
  unfold block
  split
  · simpa [characters_cons, characters_nil] using opens.append closes
  · rw [List.cons_append, characters_cons, characters_append, characters_cons, characters_nil]
    simpa using opens.append (inner.append ((margin_plain depth).append closes))

mutual
/-- Values are written in plain characters only. -/
theorem pieces_plain (value : Value) (depth : Nat) {room : Nat} (readable : Readable room value) :
    Plain (characters (pieces depth value)) := by
  cases value with
  | null => exact show Plain "null".toList by decide
  | bool flag =>
      cases flag
      · exact show Plain "false".toList by decide
      · exact show Plain "true".toList by decide
  | int number =>
      rw [pieces, numberPiece_short readable, characters_cons, characters_nil, List.append_nil]
      exact whole_plain number
  | float number =>
      rw [pieces, characters_cons, characters_nil, List.append_nil]
      exact (rereads readable).plain
  | date day => exact readable.elim
  | moment time => exact readable.elim
  | text content =>
      rw [pieces, characters_cons, characters_nil, List.append_nil]
      exact writtenText_plain content
  | list items => exact block_plain (by decide) (by decide) (itemPieces_plain items _ _ readable.2)
  | dict entries => exact block_plain (by decide) (by decide) (entryPieces_plain entries _ _ readable.2.2)

theorem itemPieces_plain (items : List Value) (depth : Nat) (first : Bool) {room : Nat}
    (readable : ReadableItems room items) :
    Plain (characters (itemPieces depth first items)) := by
  cases items with
  | nil => exact show Plain [] from nofun
  | cons item others =>
      rw [characters_item others readable.1]
      exact (separator_plain depth first).append
        ((pieces_plain item depth readable.1).append (itemPieces_plain others depth false readable.2))

theorem entryPieces_plain (entries : Entries) (depth : Nat) (first : Bool) {room : Nat}
    (readable : ReadableEntries room entries) :
    Plain (characters (entryPieces depth first entries)) := by
  cases entries with
  | nil => exact show Plain [] from nofun
  | cons entry others =>
      obtain ⟨key, item⟩ := entry
      obtain ⟨⟨name, rfl, -⟩, here, there⟩ := readable
      rw [characters_entry]
      exact (separator_plain depth first).append ((writtenText_plain name).append
        (Plain.append (show Plain [':', ' '] by decide)
          ((pieces_plain item depth here).append (entryPieces_plain others depth false there))))
end

/-- A page can be written of a value that can be read, has no returns, and is read as that value. -/
theorem read_page {value : Value} (readable : Readable deepest value) :
    (page value).result = .ok () ∧ '\r' ∉ (page value).text.toList ∧
      read (page value).text = .ok value := by
  obtain ⟨done, shape⟩ := upTo_written "" (pieces_sound value 0 readable)
  have text : (page value).text.toList = characters (pieces 0 value) := shape.trans (List.nil_append _)
  have plain := pieces_plain value 0 readable
  refine ⟨done, fun member => (plain '\r' (text ▸ member)).2 rfl, ?_⟩
  obtain ⟨first, tail, begins, -, -, shown⟩ := characters_begin 0 readable
  obtain ⟨after, reads⟩ := value_written value 0 readable (show Stops [] from nofun)
    (show 2 * (characters (pieces 0 value)).length ≤ 2 * (characters (pieces 0 value)).length + 2 by omega)
  rw [List.append_nil] at reads
  have start : Cursor.skip ⟨0, characters (pieces 0 value)⟩ = ⟨0, characters (pieces 0 value)⟩ :=
    skip_starts ⟨first, tail, begins, shown⟩
  have marked : ∀ others, characters (pieces 0 value) ≠ '\ufeff' :: others := by
    intro others same
    have basic := (plain '\ufeff' (by simp [same])).1
    exact absurd basic (by decide)
  have ends : Cursor.skip ⟨after, []⟩ = ⟨after, []⟩ := rfl
  unfold read
  rw [text]
  dsimp only
  split
  case h_1 same => exact absurd same (marked _)
  case h_2 =>
    simp only [start, reads, bind, Except.bind, ends, List.isEmpty_nil, if_true]

/-! ### Values that can be read -/

theorem readableItems_iff {room : Nat} {items : List Value} :
    ReadableItems room items ↔ ∀ item ∈ items, Readable room item := by
  induction items with
  | nil => exact ⟨nofun, fun _ => trivial⟩
  | cons item rest ih => rw [ReadableItems, ih, List.forall_mem_cons]

theorem readableEntries_iff {room : Nat} {entries : Entries} :
    ReadableEntries room entries ↔ ∀ entry ∈ entries,
      (∃ name, entry.1 = .text name ∧ Unpaired name.toList) ∧ Readable room entry.2 := by
  induction entries with
  | nil => exact ⟨nofun, fun _ => trivial⟩
  | cons entry rest ih => rw [ReadableEntries, ih, List.forall_mem_cons, and_assoc]

/-- A value that can be read may be replaced under its key by another one. -/
theorem readable_put {room : Nat} {entries : Entries} {key : Key} {value : Value}
    (readable : Readable room (.dict entries)) (held : (Entries.find? entries key).isSome = true)
    (new : Readable (room - 1) value) : Readable room (.dict (Entries.put entries key value)) := by
  obtain ⟨roomy, single, all⟩ := readable
  refine ⟨roomy, (Entries.names_put value held).symm ▸ single, readableEntries_iff.mpr ?_⟩
  intro entry member
  rcases Entries.mem_put held member with before | ⟨named, rfl⟩
  · exact readableEntries_iff.mp all entry before
  · obtain ⟨other, within, same⟩ := List.mem_map.mp named
    exact ⟨same ▸ (readableEntries_iff.mp all other within).1, new⟩

/-- Entries may be left out. -/
theorem readable_sublist {room : Nat} {entries others : Entries}
    (readable : Readable room (.dict entries)) (fewer : others.Sublist entries) :
    Readable room (.dict others) := by
  obtain ⟨roomy, single, all⟩ := readable
  exact ⟨roomy, single.sublist (fewer.map Prod.fst), readableEntries_iff.mpr fun entry member =>
    readableEntries_iff.mp all entry (fewer.subset member)⟩

end ChipEight.Json
