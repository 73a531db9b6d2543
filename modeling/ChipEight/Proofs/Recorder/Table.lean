/-
This file reads the table of a history back. The columns are the registers that the recorder has ever seen, and
these cover all snapshots that it still holds, so that each cell can be looked up by the title of its column.
-/

import ChipEight.Proofs.Recorder.Gathering
import Mathlib

namespace ChipEight.Recorder

/-! ### Tables as texts -/

/-- A text without commas and line breaks. -/
def IsCell (text : String) : Prop := ',' ∉ text.toList ∧ '\n' ∉ text.toList ∧ '\r' ∉ text.toList

/-- The lines of a text, split at commas. Each of them ends with a line break. -/
def cellsOf (text : String) : List (List String) :=
  (text.splitOn "\n").dropLast.map fun line => line.splitOn ","

/-- The lines of a table, one after another. -/
def tableText : List (List String) → String
  | [] => ""
  | cells :: rest => tableLine cells ++ tableText rest

/-- A text that can be written: no half of a pair stands alone in it. -/
def IsWritable (text : String) : Prop := ∀ character ∈ text.toList, Text.Half.standsAlone character = false

theorem encoded_writable {text : String} (writable : IsWritable text) : Fault.encoded text = .ok text := by
  have none : Text.Half.alone? text = none := by
    rw [Text.Half.alone?, Option.map_eq_none_iff, List.findIdx?_eq_none_iff]
    exact writable
  rw [Fault.encoded, none]

theorem writable_plain {text : String} (plain : ∀ character ∈ text.toList, character.toNat < 0x80) :
    IsWritable text := fun character member =>
  Text.Half.standsAlone_small (Nat.lt_trans (plain character member) (by decide))

/-- A text is written as it is or not at all. -/
theorem encoded_cases (text : String) :
    Fault.encoded text = .ok text ∨ ∃ fault, Fault.encoded text = .error fault ∧ ¬ IsWritable text := by
  cases found : Fault.encoded text with
  | error fault =>
      refine .inr ⟨fault, rfl, fun writable => ?_⟩
      rw [encoded_writable writable] at found
      cases found
  | ok line =>
      unfold Fault.encoded at found
      split at found <;> cases found
      exact .inl rfl

variable {cells : List String}

theorem tableLine_writable (writable : ∀ cell ∈ cells, IsWritable cell) : IsWritable (tableLine cells) := by
  intro character member
  rw [tableLine, String.toList_append, List.mem_append] at member
  rcases member with joined | last
  · rcases Text.mem_intercalate joined with rfl | ⟨cell, inside, held⟩
    · decide
    · exact writable cell inside character held
  · cases List.mem_singleton.mp last
    decide

theorem tableLine_characters {character : Char} (proper : ∀ cell ∈ cells, character ∉ cell.toList)
    (other : character ≠ ',') : character ∉ (",".intercalate cells).toList := fun member => by
  rcases Text.mem_intercalate member with same | ⟨cell, inside, held⟩
  · exact other same
  · exact proper cell inside held

theorem cellsOf_line (proper : ∀ cell ∈ cells, IsCell cell) (filled : cells ≠ []) (rest : String) :
    cellsOf (tableLine cells ++ rest) = cells :: cellsOf rest := by
  have line : (",".intercalate cells).splitOn "\n" = [",".intercalate cells] :=
    Text.splitOn_plain (tableLine_characters (fun cell member => (proper cell member).2.1) (by decide))
  have more : rest.splitOn "\n" ≠ [] := Text.splitOn_ne_nil '\n' rest
  have cut : (tableLine cells ++ rest).splitOn "\n" = [",".intercalate cells] ++ rest.splitOn "\n" :=
    line ▸ Text.splitOn_joined '\n' (",".intercalate cells) rest
  have parts : (",".intercalate cells).splitOn "," = cells :=
    Text.splitOn_intercalate filled fun cell member => (proper cell member).1
  rw [cellsOf, cut, List.dropLast_append_of_ne_nil more, List.singleton_append, List.map_cons, parts]
  rfl

/-- The cells of a table can be read from its text. -/
theorem cellsOf_table {table : List (List String)}
    (proper : ∀ cells ∈ table, cells ≠ [] ∧ ∀ cell ∈ cells, IsCell cell) : cellsOf (tableText table) = table := by
  induction table with
  | nil =>
      have whole : "".splitOn "\n" = [""] := Text.splitOn_plain List.not_mem_nil
      rw [tableText, cellsOf, whole]
      rfl
  | cons cells rest ih =>
      obtain ⟨⟨filled, here⟩, others⟩ := List.forall_mem_cons.mp proper
      rw [tableText, cellsOf_line here filled, ih others]

theorem tableText_plain {table : List (List String)} (proper : ∀ cells ∈ table, ∀ cell ∈ cells, IsCell cell) :
    '\r' ∉ (tableText table).toList := by
  induction table with
  | nil => exact List.not_mem_nil
  | cons cells rest ih =>
      obtain ⟨here, others⟩ := List.forall_mem_cons.mp proper
      have line := tableLine_characters (fun cell member => (here cell member).2.2) (by decide)
      rw [tableText, tableLine, String.toList_append, String.toList_append, List.mem_append, List.mem_append, not_or,
        not_or]
      exact ⟨⟨line, by decide⟩, ih others⟩

/-! ### Columns -/

/-- What is shown in a cell. -/
def shownIn : Option Value → String
  | none => ""
  | some value => value.shown

/-- The columns of tables: the place in the history, a part of the snapshot, or a register. -/
inductive Column where
  | place
  | field (name : String)
  | register (name : String)

namespace Column

def title : Column → String
  | place => "record_idx"
  | field name => name
  | register name => "reg_" ++ name

/-- What a snapshot at a place in the history has for a column. -/
def value (index : Nat) (state : Value) : Column → Option Value
  | place => some (.int index)
  | field name => state.field? name
  | register name => registerOf name state

def cell (index : Nat) (state : Value) (column : Column) : String := shownIn (column.value index state)

/-- A column that tables may have. -/
def IsUsed : Column → Prop
  | place => True
  | field name => name ∈ fieldNames
  | register _ => True

theorem register_title {name title : String} (fixed : title ∈ "record_idx" :: fieldNames) : "reg_" ++ name ≠ title := by
  have starts : ("reg_" ++ name).toList.take 4 = "reg_".toList := by simp
  have others : ∀ title ∈ "record_idx" :: fieldNames, title.toList.take 4 ≠ "reg_".toList := by decide
  rintro rfl
  exact others _ fixed starts

theorem title_injective {one other : Column} (first : one.IsUsed) (second : other.IsUsed)
    (same : one.title = other.title) : one = other := by
  have place : "record_idx" ∉ fieldNames := by decide
  cases one <;> cases other
  case place.place => rfl
  case place.field name => exact absurd (show "record_idx" = name from same) fun alike => place (alike ▸ second)
  case place.register name => exact absurd same.symm (register_title List.mem_cons_self)
  case field.place name => exact absurd (show name = "record_idx" from same) fun alike => place (alike ▸ first)
  case field.field name other => exact congrArg field same
  case field.register name other => exact absurd same.symm (register_title (List.mem_cons_of_mem _ first))
  case register.place name => exact absurd same (register_title List.mem_cons_self)
  case register.field name other => exact absurd same (register_title (List.mem_cons_of_mem _ second))
  case register.register name other => exact congrArg register (String.append_right_inj "reg_" |>.mp same)

end Column

/-- The columns of a table for registers by name. -/
def columns (names : List String) : List Column :=
  .place :: (fieldNames.map .field ++ names.map .register)

theorem columns_used {names : List String} {column : Column} (member : column ∈ columns names) : column.IsUsed := by
  rcases List.mem_cons.mp member with rfl | others
  · trivial
  · rcases List.mem_append.mp others with field | register
    · obtain ⟨name, inside, rfl⟩ := List.mem_map.mp field
      exact inside
    · obtain ⟨name, inside, rfl⟩ := List.mem_map.mp register
      trivial

theorem header_columns (names : List String) : header names = tableLine ((columns names).map Column.title) := by
  unfold header columns
  rw [List.map_cons, List.map_append, List.map_map, List.map_map]
  rfl

/-! ### Reading numbers -/

/-- The number in a cell; an empty cell holds none. -/
def number? (cell : String) : Option Int :=
  if cell = "" then none else cell.toInt?

/-- The number in a row under a title. -/
def numberUnder (titles row : List String) (title : String) : Option Int :=
  ((titles.zip row).lookup title).bind number?

theorem number?_shown (number : Int) : number? (Value.int number).shown = some number := by
  have reads : (toString number).toInt? = some number := Int.toInt?_repr number
  have filled : toString number ≠ "" := by
    intro empty
    have characters := Text.toList_toString number
    rw [empty] at characters
    exact Nat.toDigits_ne_nil (List.append_eq_nil_iff.mp characters.symm).2
  exact (if_neg filled).trans reads

variable {used : List Column} {column : Column} {cell : Column → String}

/-- What is under the title of a column is the cell of that column. -/
theorem lookup_column (all : ∀ other ∈ used, other.IsUsed) (one : column.IsUsed) (member : column ∈ used) :
    ((used.map Column.title).zip (used.map cell)).lookup column.title = some (cell column) := by
  rw [List.zip_map']
  induction used with
  | nil => exact nomatch member
  | cons first rest ih =>
      obtain ⟨here, others⟩ := List.forall_mem_cons.mp all
      rw [List.map_cons, List.lookup_cons]
      split
      case h_1 same => rw [Column.title_injective one here (eq_of_beq same)]
      case h_2 different =>
        refine ih others ((List.mem_cons.mp member).resolve_left ?_)
        rintro rfl
        exact absurd (beq_self_eq_true _) (by rw [different]; exact Bool.false_ne_true)

theorem lookup_none (all : ∀ other ∈ used, other.IsUsed) (one : column.IsUsed) (absent : column ∉ used) :
    ((used.map Column.title).zip (used.map cell)).lookup column.title = none := by
  rw [List.zip_map', List.lookup_eq_none_iff]
  intro entry member
  obtain ⟨other, inside, rfl⟩ := List.mem_map.mp member
  refine bne_iff_ne.mpr fun same => absent ?_
  rwa [Column.title_injective one (all other inside) same]

theorem toString_character {number : Int} {character : Char} (member : character ∈ (toString number).toList) :
    (character ≠ ',' ∧ character ≠ '\n' ∧ character ≠ '\r') ∧ Text.Half.standsAlone character = false := by
  have digits : ∀ digit : Fin 10, (digit.val.digitChar ≠ ',' ∧ digit.val.digitChar ≠ '\n' ∧
      digit.val.digitChar ≠ '\r') ∧ Text.Half.standsAlone digit.val.digitChar = false := by decide
  rcases Text.mem_toString member with rfl | ⟨value, small, rfl⟩
  · decide
  · exact digits ⟨value, small⟩

theorem toString_cell (number : Int) : IsCell (toString number) :=
  ⟨fun member => (toString_character member).1.1 rfl, fun member => (toString_character member).1.2.1 rfl,
    fun member => (toString_character member).1.2.2 rfl⟩

theorem toString_writable (number : Int) : IsWritable (toString number) :=
  fun _ member => (toString_character member).2

/-! ### Rows -/

/-- A register with a name that can stand in a cell and with a whole number. -/
def IsRegister (entry : Key × Value) : Prop := ∃ name number, entry = (.text name, .int number) ∧ IsCell name

/-- A mapping with whole numbers for its cycle, its counter, its opcode and its registers, each of which it need not
have. The names of the registers can stand in cells. -/
def IsTabular (state : Value) : Prop :=
  ∃ entries registers, state = .dict entries ∧
    (Entries.find? entries (.text "registers")).getD (.dict []) = .dict registers ∧
    (∀ name ∈ fieldNames, IsWhole (Entries.find? entries (.text name))) ∧ ∀ entry ∈ registers, IsRegister entry

/-- All numbers of a snapshot that are in its row are short enough to be shown. -/
def IsShown (state : Value) : Prop :=
  (∀ name ∈ fieldNames, ∀ value, state.field? name = some value → value.isShowable = true) ∧
    ∀ name value, registerOf name state = some value → value.isShowable = true

/-! ### What rows say -/

variable {state : Value} {states : List Value} {name : String} {value : Value} {index : Nat}

/-- The kind of snapshots that can stand in tables. -/
def Kind.tabular : Kind := .numeric fieldNames IsCell (by decide)

namespace IsTabular

theorem numeric (tabular : IsTabular state) : IsNumeric fieldNames IsCell state := tabular

/-- What a snapshot has for a column is a whole number. -/
theorem whole (tabular : IsTabular state) (index : Nat) {column : Column} (used : column.IsUsed) :
    IsWhole (column.value index state) := by
  cases column with
  | place =>
      rintro value ⟨⟩
      exact ⟨index, rfl⟩
  | field name => exact tabular.numeric.field used
  | register name => exact fun value found => (tabular.numeric.register found).2

end IsTabular

theorem shownIn_cell {found : Option Value} (whole : IsWhole found) : IsCell (shownIn found) := by
  cases found with
  | none => exact ⟨List.not_mem_nil, List.not_mem_nil, List.not_mem_nil⟩
  | some value =>
      obtain ⟨number, rfl⟩ := whole value rfl
      exact toString_cell number

theorem shownIn_writable {found : Option Value} (whole : IsWhole found) : IsWritable (shownIn found) := by
  cases found with
  | none => exact fun _ member => nomatch member
  | some value =>
      obtain ⟨number, rfl⟩ := whole value rfl
      exact toString_writable number

/-- What is shown of a whole number, or of none, can be read. -/
theorem number?_cell {found : Option Value} (whole : IsWhole found) :
    (number? (shownIn found)).map Value.int = found := by
  cases found with
  | none => rfl
  | some value =>
      obtain ⟨number, rfl⟩ := whole value rfl
      exact congrArg (Option.map Value.int) (number?_shown number)

theorem map_int_injective : Function.Injective (Option.map Value.int) :=
  Option.map_injective fun _ _ same => Value.int.inj same

/-- Under the title of a column there is what the snapshot has for it, if it has nothing for columns that are
missing. -/
theorem numberUnder_column {names : List String} (tabular : IsTabular state) {column : Column} (used : column.IsUsed)
    (covered : column ∉ columns names → column.value index state = none) :
    (numberUnder ((columns names).map Column.title) ((columns names).map (Column.cell index state))
      column.title).map Value.int = column.value index state := by
  have all : ∀ other ∈ columns names, other.IsUsed := fun other member => columns_used member
  unfold numberUnder
  by_cases member : column ∈ columns names
  · rw [lookup_column all used member, Option.bind_some]
    exact number?_cell (tabular.whole index used)
  · rw [lookup_none all used member, covered member]
    rfl

theorem title_cell {names : List String} (proper : ∀ name ∈ names, IsCell name) {column : Column}
    (member : column ∈ columns names) : IsCell column.title := by
  have fixed : ∀ title ∈ "record_idx" :: fieldNames, IsCell title := by
    unfold IsCell
    decide
  rcases List.mem_cons.mp member with rfl | others
  · exact fixed _ List.mem_cons_self
  rcases List.mem_append.mp others with field | register
  · obtain ⟨name, inside, rfl⟩ := List.mem_map.mp field
    exact fixed name (List.mem_cons_of_mem _ inside)
  · obtain ⟨name, inside, rfl⟩ := List.mem_map.mp register
    obtain ⟨commas, breaks, returns⟩ := proper name inside
    have starts : (Column.register name).title.toList = ['r', 'e', 'g', '_'] ++ name.toList := by
      simp [Column.title]
    unfold IsCell
    rw [starts]
    simp [commas, breaks, returns]

/-! ### Writing rows -/

theorem header_writable {names : List String} (writable : ∀ name ∈ names, IsWritable name) :
    IsWritable (header names) := by
  have plain : ∀ title ∈ "record_idx" :: fieldNames, ∀ character ∈ title.toList, character.toNat < 0x80 := by
    simp [fieldNames]
  have fixed : ∀ title ∈ "record_idx" :: fieldNames, IsWritable title := fun title member =>
    writable_plain (plain title member)
  refine tableLine_writable fun cell member => ?_
  rcases List.mem_cons.mp member with rfl | others
  · exact fixed _ List.mem_cons_self
  rcases List.mem_append.mp others with field | register
  · exact fixed cell (List.mem_cons_of_mem _ field)
  · obtain ⟨name, inside, rfl⟩ := List.mem_map.mp register
    intro character held
    rw [String.toList_append, List.mem_append] at held
    rcases held with start | rest
    · exact writable_plain (by simp) character start
    · exact writable name inside character rest

/-- A cell is shown unless there is a number in it that is too long. -/
theorem cellOf_dict (entries : Entries) (name : String) :
    cellOf (.dict entries) name = .ok (shownIn (Entries.find? entries (.text name))) ∨
      ∃ fault value, cellOf (.dict entries) name = .error fault ∧
        Entries.find? entries (.text name) = some value ∧ value.isShowable = false := by
  unfold cellOf
  rw [Value.getOr_dict]
  simp only [bind, Except.bind]
  cases found : Entries.find? entries (.text name) with
  | none => exact .inl rfl
  | some value =>
      rw [Option.getD_some, Value.show?]
      cases short : value.isShowable with
      | true => exact .inl rfl
      | false => exact .inr ⟨_, value, rfl, rfl, short⟩

theorem cells_dict (entries : Entries) (names : List String) :
    names.mapM (cellOf (.dict entries)) =
        .ok (names.map fun name => shownIn (Entries.find? entries (.text name))) ∨
      ∃ fault name value, names.mapM (cellOf (.dict entries)) = .error fault ∧ name ∈ names ∧
        Entries.find? entries (.text name) = some value ∧ value.isShowable = false := by
  induction names with
  | nil => exact .inl rfl
  | cons name rest ih =>
      rw [List.mapM_cons]
      rcases cellOf_dict entries name with shown | ⟨fault, value, fails, found, long⟩
      · rw [shown]
        rcases ih with others | ⟨fault, other, value, fails, member, found, long⟩
        · rw [others]
          exact .inl rfl
        · rw [fails]
          exact .inr ⟨fault, other, value, rfl, List.mem_cons_of_mem name member, found, long⟩
      · rw [fails]
        exact .inr ⟨fault, name, value, rfl, List.mem_cons_self, found, long⟩

/-- A snapshot has the row of its columns, unless there is a number in it that is too long. -/
theorem row_cases (names : List String) (index : Nat) (tabular : IsTabular state) :
    row names index state = .ok (tableLine ((columns names).map (Column.cell index state))) ∨
      ∃ fault, row names index state = .error fault ∧ ¬ IsShown state := by
  have writable : IsWritable (tableLine ((columns names).map (Column.cell index state))) := by
    refine tableLine_writable fun cell member => ?_
    obtain ⟨column, inside, rfl⟩ := List.mem_map.mp member
    exact shownIn_writable (tabular.whole index (columns_used inside))
  obtain ⟨entries, registers, rfl, named⟩ := tabular.numeric.shaped
  unfold row
  rw [Value.getOr_dict, named]
  simp only [bind, Except.bind]
  rcases cells_dict entries fieldNames with fields | ⟨fault, name, value, fails, member, found, long⟩
  case inr =>
    rw [fails]
    refine .inr ⟨fault, rfl, fun shown => ?_⟩
    rw [shown.1 name member value found] at long
    cases long
  rw [fields]
  rcases cells_dict registers names with values | ⟨fault, name, value, fails, member, found, long⟩
  case inr =>
    rw [fails]
    refine .inr ⟨fault, rfl, fun shown => ?_⟩
    rw [shown.2 name value ((registerOf_dict named name).trans found)] at long
    cases long
  rw [values]
  rw [← encoded_writable writable]
  refine .inl (congrArg (fun cells => Fault.encoded (tableLine (toString index :: cells))) ?_)
  rw [List.map_append, List.map_map, List.map_map]
  congr 2
  exact funext fun name => congrArg shownIn (registerOf_dict named name).symm

/-- The rows of snapshots. -/
def tableRows (names : List String) (index : Nat) (states : List Value) : List (List String) :=
  (states.zipIdx index).map fun entry => (columns names).map (Column.cell entry.2 entry.1)

theorem rows_cases (names : List String) (index : Nat) (tabular : ∀ state ∈ states, IsTabular state) :
    rows names index states = (tableText (tableRows names index states), .ok ()) ∨
      ∃ fault, (rows names index states).2 = .error fault ∧ ∃ state ∈ states, ¬ IsShown state := by
  induction states generalizing index with
  | nil => exact .inl rfl
  | cons state rest ih =>
      obtain ⟨here, others⟩ := List.forall_mem_cons.mp tabular
      rw [rows]
      rcases row_cases names index here with line | ⟨fault, fails, long⟩
      · rw [line]
        rcases ih (index + 1) others with lines | ⟨fault, fails, other, member, long⟩
        · rw [lines]
          exact .inl rfl
        · exact .inr ⟨fault, fails, other, List.mem_cons_of_mem state member, long⟩
      · rw [fails]
        exact .inr ⟨fault, rfl, state, List.mem_cons_self, long⟩

/-! ### What recorders hold -/

variable {recorder : Recorder} {files : Files} {path : String}

/-- The recorder knows the registers of all snapshots that it holds, and these can be shown in a table. -/
structure Covers (recorder : Recorder) : Prop where
  tabular : ∀ state ∈ recorder.history.toList, IsTabular state
  known : ∀ state ∈ recorder.history.toList, ∀ key ∈ registersOf state, key ∈ recorder.registers
  names : ∀ key ∈ recorder.registers, ∃ name, key = .text name ∧ IsCell name

/-- The recorders that come of taking snapshots with whole numbers, refused ones among them, of clearing, and of
loading histories of such snapshots, in any order. -/
inductive Grown : Recorder → Prop where
  | make {limit ratio filter : Value} {fresh : Recorder} (made : make limit ratio filter = .ok fresh) : Grown fresh
  | record {recorder : Recorder} {state : Value} (grown : Grown recorder) (tabular : IsTabular state) :
      Grown (recorder.record state).1
  | clear {recorder : Recorder} (grown : Grown recorder) : Grown recorder.clear
  | load {recorder : Recorder} {files : Files} {path : String} (grown : Grown recorder)
      (loads : (recorder.load files (.text path)).result = .ok true)
      (tabular : ∀ state ∈ (recorder.load files (.text path)).recorder.history.toList, IsTabular state) :
      Grown (recorder.load files (.text path)).recorder

theorem Grown.gathered (grown : Grown recorder) : Gathered .tabular recorder := by
  induction grown with
  | make made => exact .make made
  | record grown tabular ih => exact .record ih tabular
  | clear grown ih => exact .clear ih
  | load grown loads tabular ih => exact .load ih loads tabular

theorem Grown.covers (grown : Grown recorder) : recorder.Covers where
  tabular := grown.gathered.knows.held
  known := grown.gathered.knows.known
  names := grown.gathered.knows.names

/-! ### Saving and reading back -/

/-- A table with a header and a row for each snapshot, in which all that is in the columns can be looked up. -/
structure Lossless (history : Array Value) (titles : List String) (rows : List (List String)) : Prop where
  count : rows.length = history.size
  width : ∀ row ∈ rows, row.length = titles.length
  place : ∀ (index : Nat) row, rows[index]? = some row → numberUnder titles row "record_idx" = some index
  fields : ∀ (index : Nat) (state : Value) row, history[index]? = some state → rows[index]? = some row →
    ∀ name ∈ fieldNames, (numberUnder titles row name).map Value.int = state.field? name
  registers : ∀ (index : Nat) (state : Value) row, history[index]? = some state → rows[index]? = some row →
    ∀ name, (numberUnder titles row ("reg_" ++ name)).map Value.int = registerOf name state

theorem tableRows_get (names : List String) (states : List Value) (index : Nat) :
    (tableRows names 0 states)[index]? =
      states[index]?.map fun state => (columns names).map (Column.cell index state) := by
  rw [tableRows, List.getElem?_map, List.getElem?_zipIdx, Option.map_map, Nat.zero_add]
  rfl

/-- A recorder that knows all registers of its snapshots has a table without loss. -/
theorem Covers.lossless {names : List String} (covers : recorder.Covers)
    (all : ∀ name, Key.text name ∈ recorder.registers → name ∈ names) :
    Lossless recorder.history ((columns names).map Column.title)
      (tableRows names 0 recorder.history.toList) := by
  have reads {index : Nat} {state : Value} {row : List String} (found : recorder.history[index]? = some state)
      (placed : (tableRows names 0 recorder.history.toList)[index]? = some row) {column : Column}
      (used : column.IsUsed) (covered : column ∉ columns names → column.value index state = none) :
      (numberUnder ((columns names).map Column.title) row column.title).map Value.int = column.value index state := by
    rw [tableRows_get, Array.getElem?_toList, found] at placed
    cases placed
    exact numberUnder_column (covers.tabular state (Array.mem_def.mp (Array.mem_of_getElem? found))) used covered
  constructor
  · rw [tableRows, List.length_map, List.length_zipIdx, Array.length_toList]
  · intro row member
    obtain ⟨entry, -, rfl⟩ := List.mem_map.mp member
    rw [List.length_map, List.length_map]
  · intro index row placed
    have inside := placed
    rw [tableRows_get, Array.getElem?_toList] at inside
    obtain ⟨state, found, -⟩ := Option.map_eq_some_iff.mp inside
    have place := reads found placed (show Column.place.IsUsed from trivial)
      fun absent => absurd List.mem_cons_self absent
    exact map_int_injective place
  · intro index state row found placed name member
    refine reads found placed (show (Column.field name).IsUsed from member) fun absent => absurd ?_ absent
    exact List.mem_cons_of_mem _ (List.mem_append_left _ (List.mem_map_of_mem member))
  · intro index state row found placed name
    refine reads found placed (show (Column.register name).IsUsed from trivial) fun absent => ?_
    cases held : registerOf name state with
    | none => exact held
    | some value =>
        have within : state ∈ recorder.history.toList := Array.mem_def.mp (Array.mem_of_getElem? found)
        have known := covers.known state within _ ((covers.tabular state within).numeric.register held).1
        refine absurd (List.mem_cons_of_mem _ (List.mem_append_right _ ?_)) absent
        exact List.mem_map_of_mem (all name known)

/-- The titles and the rows can stand in a table. -/
theorem Covers.fits {names : List String} (covers : recorder.Covers) (proper : ∀ name ∈ names, IsCell name) :
    ∀ cells ∈ (columns names).map Column.title :: tableRows names 0 recorder.history.toList,
      cells ≠ [] ∧ ∀ cell ∈ cells, IsCell cell := by
  rw [List.forall_mem_cons]
  refine ⟨⟨nofun, fun cell member => ?_⟩, fun cells member => ?_⟩
  · obtain ⟨column, inside, rfl⟩ := List.mem_map.mp member
    exact title_cell proper inside
  · obtain ⟨⟨state, index⟩, within, rfl⟩ := List.mem_map.mp member
    refine ⟨nofun, fun cell held => ?_⟩
    obtain ⟨column, inside, rfl⟩ := List.mem_map.mp held
    have tabular := covers.tabular state (List.fst_mem_of_mem_zipIdx within)
    exact shownIn_cell (tabular.whole index (columns_used inside))

/-- The table of a recorder has all its columns and snapshots, unless there is a name or a number in it that cannot
be written. -/
theorem table_cases {names : List String} (sorted : recorder.sortedRegisters = .ok names)
    (tabular : ∀ state ∈ recorder.history.toList, IsTabular state) :
    recorder.table = .ok ⟨tableText
        ((columns names).map Column.title :: tableRows names 0 recorder.history.toList), .ok ()⟩ ∨
      ∃ text fault, recorder.table = .ok ⟨text, .error fault⟩ ∧
        ¬ ((∀ name ∈ names, IsWritable name) ∧ ∀ state ∈ recorder.history.toList, IsShown state) := by
  unfold table
  rw [sorted]
  simp only [bind, Except.bind]
  rcases encoded_cases (header names) with titles | ⟨fault, fails, unwritable⟩
  case inr =>
    rw [fails]
    exact .inr ⟨_, fault, rfl, fun proper => unwritable (header_writable proper.1)⟩
  rw [titles]
  rcases rows_cases names 0 tabular with whole | ⟨fault, fails, state, member, long⟩
  · rw [whole, header_columns]
    exact .inl rfl
  · rcases given : rows names 0 recorder.history.toList with ⟨lines, result⟩
    rw [given] at fails
    exact .inr ⟨_, fault, by rw [← fails]; rfl, fun proper => long (proper.2 state member)⟩

/-- If its statistics can be given, a recorder writes what there is of its table. -/
theorem save_table {depths : Depths} {counts : Value} (counted : recorder.statistics = .ok counts) {page : Json.Page}
    (given : recorder.table = .ok page) (opens : (files.makeParent path).result = .ok ()) :
    recorder.save depths files (.text path) (.text "csv") =
      writeContent (files.makeParent path).files path (.text "csv") (.ofText page.text) page.result := by
  have valued : recorder.toValue = .ok (Value.record [("history", .list recorder.history.toList),
      ("compressed", recorder.compressed), ("statistics", counts)]) := by
    unfold toValue
    rw [counted]
    rfl
  rw [save_path recorder _ opens, write, valued]
  dsimp only
  rw [given]
  rfl

theorem writeContent_fails (files : Files) (path : String) (format : Value) (content : Content) (fault : Fault) :
    (writeContent files path format content (.error fault)).result ≠ .ok true := by
  unfold writeContent
  split
  · exact saveFailure_fails _ _
  · exact saveFailure_fails _ _
  case h_3 same => cases same

/-- The table of a recorder that has grown in whatever way is written if cycles and samples can be counted and all
names and numbers in the table can be written. What is then read from the file is a header and a row for each snapshot
that the recorder holds, in order and without loss. -/
theorem table_lossless (depths : Depths) (grown : Grown recorder) (opens : (files.makeParent path).result = .ok ())
    (accepts : ∀ content, ∃ after, (files.makeParent path).files.write path content = .ok after) :
    let saved := recorder.save depths files (.text path) (.text "csv")
    ((∃ cycles, recorder.totalCycles = .ok cycles) → (∃ samples, recorder.compressed.length = .ok samples) →
      (∀ name, Key.text name ∈ recorder.registers → IsWritable name) →
      (∀ state ∈ recorder.history.toList, IsShown state) → saved.result = .ok true) ∧
    (saved.result = .ok true → ∃ text titles rows, saved.files.readText path = .ok text ∧
      cellsOf text = titles :: rows ∧ Lossless recorder.history titles rows) := by
  intro saved
  have covers := grown.covers
  obtain ⟨names, sorted, all, proper, -⟩ := grown.gathered.knows.sorted
  cases counted : recorder.statistics with
  | error fault =>
      have uncounted : recorder.toValue = .error fault := by
        unfold toValue
        rw [counted]
        rfl
      have fails : saved.result ≠ .ok true := by
        unfold saved
        rw [save_path recorder _ opens, write, uncounted]
        exact saveFailure_fails _ fault
      refine ⟨?_, fun done => absurd done fails⟩
      rintro ⟨_, cycles⟩ ⟨_, samples⟩ - -
      have given := statistics_sized cycles samples sorted
      rw [counted] at given
      cases given
  | ok counts =>
  rcases table_cases sorted covers.tabular with whole | ⟨text, fault, partly, unwritten⟩
  case inr =>
    have ends : saved.result ≠ .ok true := by
      unfold saved
      rw [save_table counted partly opens]
      exact writeContent_fails _ _ _ _ fault
    refine ⟨fun _ _ writable shown => absurd ⟨fun name member => ?_, shown⟩ unwritten, fun done => absurd done ends⟩
    exact writable name ((all name).mp member)
  have fits := covers.fits proper
  let table := (columns names).map Column.title :: tableRows names 0 recorder.history.toList
  obtain ⟨after, accepted⟩ := accepts (.ofText (tableText table))
  have done : saved = ⟨after, .ok true, [.saved path (.text "csv")]⟩ := by
    unfold saved
    rw [save_table counted whole opens]
    unfold writeContent
    rw [accepted]
  have read : after.readText path = .ok (tableText table) := by
    unfold Files.readText
    rw [Files.read_write accepted]
    exact Files.textOf_ofText (tableText_plain fun cells member => (fits cells member).2)
  rw [done]
  exact ⟨fun _ _ _ _ => rfl, fun _ => ⟨_, _, _, read, cellsOf_table fits, covers.lossless fun name => (all name).mpr⟩⟩

theorem view_tabular (cycle : Int) (registers : List (String × Int))
    (proper : ∀ register ∈ registers, IsCell register.1) :
    IsTabular (view cycle (registers.map fun register => (register.1, .int register.2))) := by
  refine ⟨_, _, rfl, rfl, fun name member => ?_, fun entry member => ?_⟩
  · simp only [fieldNames, List.mem_cons, List.not_mem_nil, or_false] at member
    rcases member with rfl | rfl | rfl
    · rintro value ⟨⟩
      exact ⟨cycle, rfl⟩
    · exact nofun
    · exact nofun
  · rw [List.map_map] at member
    obtain ⟨register, inside, rfl⟩ := List.mem_map.mp member
    exact ⟨register.1, register.2, rfl, proper register inside⟩

theorem isShowable_int {number : Int} (short : number.natAbs < Numeral.firstUnshown) :
    (Value.int number).isShowable = true := by
  unfold Value.isShowable
  exact decide_eq_true short

theorem view_shown {cycle : Int} (registers : List (String × Int)) (short : cycle.natAbs < Numeral.firstUnshown)
    (shorter : ∀ register ∈ registers, register.2.natAbs < Numeral.firstUnshown) :
    IsShown (view cycle (registers.map fun register => (register.1, .int register.2))) := by
  refine ⟨fun name member value found => ?_, fun name value found => ?_⟩
  · simp only [fieldNames, List.mem_cons, List.not_mem_nil, or_false] at member
    rcases member with rfl | rfl | rfl
    · cases found
      exact isShowable_int short
    · cases found
    · cases found
  · obtain ⟨present, member, -⟩ := Entries.find?_entry found
    rw [List.map_map] at member
    obtain ⟨register, inside, same⟩ := List.mem_map.mp member
    cases same
    exact isShowable_int (shorter register inside)

/-- Two snapshots with different registers. -/
theorem table_lossless_pair :
    ∃ fresh, make (.int 2) (.int 2) .null = .ok fresh ∧
      let first := (fresh.record (view 5 [("V0", .int 1)])).1
      let recorder := (first.record (view 6 [("V1", .int 2)])).1
      let saved := recorder.save .usual ⟨[]⟩ (.text "h.csv") (.text "csv")
      saved.result = .ok true ∧ ∃ text titles rows row, saved.files.readText "h.csv" = .ok text ∧
        cellsOf text = titles :: rows ∧ rows[1]? = some row ∧ numberUnder titles row "cycle" = some 6 ∧
        numberUnder titles row "reg_V0" = none ∧ numberUnder titles row "reg_V1" = some 2 := by
  have made : make (.int 2) (.int 2) .null = .ok _ :=
    make_whole 2 .null (show limitOf (.int 2) = .ok (some 2) from rfl)
  refine ⟨_, made, ?_⟩
  intro first recorder saved
  have cells : ∀ name ∈ ["V0", "V1"], IsCell name := by
    unfold IsCell
    decide
  have earlier : IsTabular (view 5 [("V0", .int 1)]) :=
    view_tabular 5 [("V0", 1)] (List.forall_mem_singleton.mpr (cells "V0" (by decide)))
  have later : IsTabular (view 6 [("V1", .int 2)]) :=
    view_tabular 6 [("V1", 2)] (List.forall_mem_singleton.mpr (cells "V1" (by decide)))
  have grown : Grown recorder := .record (.record (.make made) earlier) later
  have named : Files.IsName "h.csv" := by constructor <;> decide
  have free : Files.node? ⟨[]⟩ ["h.csv"] ≠ some .directory := by
    rw [show Files.node? ⟨[]⟩ ["h.csv"] = none from rfl]
    exact nofun
  have history : recorder.history = #[view 5 [("V0", .int 1)], view 6 [("V1", .int 2)]] := rfl
  have cycles : recorder.totalCycles = .ok (.int 1) :=
    totalCycles_int (show recorder.firstCycle = .int 5 from rfl) (show recorder.lastCycle = .int 6 from rfl)
      (by decide)
  obtain ⟨saves, reads⟩ := table_lossless .usual grown (show (Files.makeParent ⟨[]⟩ "h.csv").result = .ok () from rfl)
    fun content => ⟨_, Files.write_name named free content⟩
  have shown : ∀ state ∈ recorder.history.toList, IsShown state := by
    rw [history]
    refine List.forall_mem_cons.mpr ⟨?_, List.forall_mem_singleton.mpr ?_⟩
    · exact view_shown [("V0", 1)] (shown_of_index (by decide))
        (List.forall_mem_singleton.mpr (shown_of_index (by decide)))
    · exact view_shown [("V1", 2)] (shown_of_index (by decide))
        (List.forall_mem_singleton.mpr (shown_of_index (by decide)))
  have writable : ∀ name, Key.text name ∈ recorder.registers → IsWritable name := by
    intro name member
    have known : recorder.registers = [.text "V0", .text "V1"] := rfl
    rw [known] at member
    have plain : ∀ name ∈ ["V0", "V1"], ∀ character ∈ name.toList, character.toNat < 0x80 := by simp
    exact writable_plain (plain name (by simpa using member))
  have done : saved.result = .ok true :=
    saves ⟨_, cycles⟩ ⟨1, show recorder.compressed.length = .ok 1 from rfl⟩ writable shown
  obtain ⟨text, titles, rows, read, cut, lossless⟩ := reads done
  have count : 1 < rows.length := by
    rw [lossless.count, history]
    decide
  have second : recorder.history[1]? = some (view 6 [("V1", .int 2)]) := by
    rw [history]
    rfl
  have placed : rows[1]? = some rows[1] := List.getElem?_eq_getElem count
  refine ⟨done, text, titles, rows, rows[1], read, cut, placed, ?_, ?_, ?_⟩
  · exact map_int_injective (lossless.fields 1 _ _ second placed "cycle" (by decide))
  · exact map_int_injective (lossless.registers 1 _ _ second placed "V0")
  · exact map_int_injective (lossless.registers 1 _ _ second placed "V1")

theorem readValue_page {text : String} {saved : Value} (named : Text.lower (Path.extension path) = ".json")
    (found : files.read path = .ok (.ofText text)) (plain : '\r' ∉ text.toList) (parsed : Json.read text = .ok saved) :
    readValue files path = some (.ok saved) := by
  rw [readValue_json named, Files.readText, found]
  simp only [bind, Except.bind, Files.textOf_ofText plain, parsed, Except.mapError]

/-- A page with one snapshot, and with nothing where its samples should be. -/
theorem read_unsampled :
    Json.read "\x7b\"history\": [\x7b\"cycle\": 1, \"registers\": \x7b\x7d\x7d], \"compressed\": null\x7d" =
      .ok (Value.record [("history", .list [view 1 []]), ("compressed", .null)]) := by
  rfl

/-- A history is loaded that has nothing where its samples should be. Its table is not written. -/
theorem unsampled_table_unsaved :
    ∃ fresh, make (.int 4) (.int 10) .null = .ok fresh ∧
      let page := "\x7b\"history\": [\x7b\"cycle\": 1, \"registers\": \x7b\x7d\x7d], \"compressed\": null\x7d"
      let files : Files := ⟨[(["h.json"], .file (.ofText page))]⟩
      let loaded := fresh.load files (.text "h.json")
      Grown loaded.recorder ∧ loaded.result = .ok true ∧ loaded.recorder.history = #[view 1 []] ∧
        ∀ depths, (loaded.recorder.save depths files (.text "h.csv") (.text "csv")).result = .ok false := by
  have made : make (.int 4) (.int 10) .null = .ok _ :=
    make_whole 10 .null (show limitOf (.int 4) = .ok (some 4) from rfl)
  refine ⟨_, made, ?_⟩
  generalize start : (⟨some 4, .int 4, .int (max 1 10), .null, #[], .list [], .int 0, .null, .null, []⟩ :
    Recorder) = fresh at made ⊢
  intro page files loaded
  have found : files.read "h.json" = .ok (.ofText page) := Files.read_name (by constructor <;> decide) rfl
  have read := readValue_page (by decide +kernel) found (by decide) read_unsampled
  obtain ⟨kept, ends⟩ := fresh.load_read read
  have taken : fresh.takeOver (Value.record [("history", .list [view 1 []]), ("compressed", .null)]) =
      ({ fresh with
          history := #[view 1 []], compressed := .null, total := .int 1
          firstCycle := .int 1, lastCycle := .int 1 }, .ok ()) := by
    subst start
    rfl
  rw [taken] at kept ends
  have same : loaded.recorder = _ := kept
  have loads : loaded.result = .ok true := ends
  have tabular : ∀ state ∈ loaded.recorder.history.toList, IsTabular state := by
    rw [same]
    exact List.forall_mem_singleton.mpr (view_tabular 1 [] (List.forall_mem_nil _))
  refine ⟨.load (.make made) loads tabular, loads, by rw [same], fun depths => ?_⟩
  have counted : loaded.recorder.totalCycles = .ok (.int 0) := by
    have first : loaded.recorder.firstCycle = .int 1 := by rw [same]
    have last : loaded.recorder.lastCycle = .int 1 := by rw [same]
    exact totalCycles_int first last (by decide)
  have unsaved : loaded.recorder.toValue = .error .wrongKind := by
    unfold toValue statistics
    rw [counted, same]
    rfl
  have opens : (files.makeParent "h.csv").result = .ok () := rfl
  rw [save_path _ _ opens, write, unsaved]
  rfl

end ChipEight.Recorder
