/-
This file says what stands along every path after a document is laid over settings. The path is walked down
both of them while both hold mappings; where the walk ends decides whose value stands there, and which names
are touched. A document that is laid once more leaves all values as they are.
-/

import ChipEight.Proofs.Settings.Modified

namespace ChipEight

/-! ### Walks -/

/-- The value that keys lead to one after another. -/
def Value.reach (value : Value) : List Key → Option Value
  | [] => some value
  | key :: rest => (value.entries?.bind fun entries => Entries.find? entries key).bind fun inner => inner.reach rest

theorem Value.Named.tail {fits : String → Prop} {entry : Key × Value} {rest : Entries}
    (named : Value.Named fits (.dict (entry :: rest))) : Value.Named fits (.dict rest) :=
  .dict (List.nodup_cons.mp named.faces).2 (fun _ member => named.name (List.mem_cons_of_mem _ member))
    fun _ member => named.part (List.mem_cons_of_mem _ member)

namespace Settings

/-- How a walk down a document and settings ends: the document lacks a key of the path, it has the key but one of
the two holds no mapping there, with so much of the path left, or both hold mappings at the end of the path. -/
inductive Ending where
  | lacking
  | placing (rest : List Key)
  | merging

/-- The end of the walk along a path down entries of a document and of settings. -/
def ending (entries tree : Entries) : List Key → Ending
  | [] => .merging
  | key :: rest =>
      match Entries.find? entries key, Entries.find? tree key with
      | none, _ => .lacking
      | some (.dict inner), some (.dict old) => ending inner old rest
      | some _, _ => .placing rest

variable {entries tree inner old rest : Entries} {key : Key} {value : Value} {path : List Key}
  {settings : Settings}

theorem reach_cons (tree : Entries) (key : Key) (path : List Key) :
    (Value.dict tree).reach (key :: path) = (Entries.find? tree key).bind fun inner => inner.reach path := rfl

theorem ending_absent (absent : Entries.find? entries key = none) : ending entries tree (key :: path) = .lacking := by
  rw [ending, absent]

theorem ending_inside (given : Entries.find? entries key = some (.dict inner))
    (found : Entries.find? tree key = some (.dict old)) :
    ending entries tree (key :: path) = ending inner old path := by
  rw [ending, given, found]

theorem ending_placed (given : Entries.find? entries key = some value)
    (apart : ∀ inner old, value = .dict inner → Entries.find? tree key ≠ some (.dict old)) :
    ending entries tree (key :: path) = .placing path := by
  rw [ending, given]
  split
  case h_1 missing => cases missing
  case h_2 inner old same found => exact absurd found (apart inner old (Option.some.inj same))
  case h_3 => rfl

/-- What stands at the end of a path is what it was if the document lacks a key, what the document has if the walk
ends before that of the path, and a mapping otherwise. -/
inductive Stands (entries tree after : Entries) (path : List Key) : Prop where
  | kept (ends : ending entries tree path = .lacking)
      (stands : (Value.dict after).reach path = (Value.dict tree).reach path)
  | placed (left : List Key) (ends : ending entries tree path = .placing left)
      (stands : (Value.dict after).reach path = (Value.dict entries).reach path)
  | merged (inner : Entries) (ends : ending entries tree path = .merging)
      (stands : (Value.dict after).reach path = some (.dict inner))

theorem overlay_stands {fits : String → Prop} {name : Key} (named : Value.Named fits (.dict entries))
    (ends : (overlay name settings entries).result = .ok ()) (path : List Key) :
    Stands entries settings.tree (overlay name settings entries).settings.tree path := by
  induction path generalizing name entries settings with
  | nil => exact .merged _ rfl rfl
  | cons key more ih =>
      cases overlay_laidAt named.faces ends key with
      | kept absent stands =>
          refine .kept (ending_absent absent) ?_
          rw [reach_cons, reach_cons, stands]
      | placed value given apart stands =>
          refine .placed more (ending_placed given apart) ?_
          rw [reach_cons, reach_cons, stands, given]
      | merged inner old title modified given found whole stands =>
          obtain ⟨_, member⟩ := Entries.find?_mem given
          have further : ending entries settings.tree (key :: more) = ending inner old more :=
            ending_inside given found
          have before : (Value.dict settings.tree).reach (key :: more) = (Value.dict old).reach more := by
            rw [reach_cons, found, Option.bind_some]
          have said : (Value.dict entries).reach (key :: more) = (Value.dict inner).reach more := by
            rw [reach_cons, given, Option.bind_some]
          have after : (Value.dict (overlay name settings entries).settings.tree).reach (key :: more) =
              (Value.dict (overlay title ⟨old, modified⟩ inner).settings.tree).reach more := by
            rw [reach_cons, stands, Option.bind_some]
          cases ih (named.part member) whole with
          | kept lacks stands => exact .kept (further.trans lacks) (after.trans (stands.trans before.symm))
          | placed left stops stands =>
              exact .placed left (further.trans stops) (after.trans (stands.trans said.symm))
          | merged held goes stands => exact .merged held (further.trans goes) (after.trans stands)

/-! ### Names that are touched -/

/-- The name of a path with points between its keys. -/
def dotted (path : List String) : String := ".".intercalate path

/-- The paths at whose last key a document puts a value in place. -/
def PlacedAt (entries tree : Entries) (path : List String) : Prop :=
  ending entries tree (path.map .text) = .placing []

variable {base : List String} {part name : String}

theorem dotted_filled (given : ∀ name ∈ base, name ≠ "") (filled : base ≠ []) : dotted base ≠ "" := by
  obtain ⟨first, rest, rfl⟩ := List.exists_cons_of_ne_nil filled
  have starts : first ≠ "" := given first List.mem_cons_self
  unfold dotted
  cases rest with
  | nil => rwa [String.intercalate_singleton]
  | cons second more => simp [starts]

/-- Below a path of keys that are not empty, the name of a key is that of the longer path. -/
theorem below_dotted (given : ∀ name ∈ base, name ≠ "") (part : String) :
    below (.text (dotted base)) (.text part) = .ok (.text (dotted (base ++ [part]))) := by
  by_cases filled : base = []
  · subst filled
    rfl
  · have named : (Key.text (dotted base)).toValue.isTrue = true := by
      simp [Key.toValue, Value.isTrue, dotted_filled given filled]
    have longer : dotted (base ++ [part]) = dotted base ++ "." ++ part := by
      unfold dotted
      rw [String.intercalate_append_of_ne_nil filled (List.cons_ne_nil part []), String.intercalate_singleton]
    rw [longer]
    exact if_pos named

theorem text_face_ne {other : String} (different : other ≠ part) : (Key.text other).face ≠ (Key.text part).face :=
  fun same => different (Face.text.inj same)

/-- No value is put in place at the empty path. -/
theorem placedAt_nil : ¬ PlacedAt entries tree [] := nofun

theorem placedAt_absent {first : String} (absent : Entries.find? entries (.text first) = none) (more : List String) :
    ¬ PlacedAt entries tree (first :: more) := by
  rw [PlacedAt, List.map_cons, ending_absent absent]
  exact nofun

theorem placedAt_elsewhere {first : String} (other : first ≠ part) (more : List String) :
    ¬ PlacedAt [(.text part, value)] tree (first :: more) :=
  placedAt_absent (Entries.find?_tail (text_face_ne other) value []) more

/-- Where a value is put in place depends on what is found under the first key. -/
theorem placedAt_congr {others after : Entries} {first : String}
    (given : Entries.find? entries (.text first) = Entries.find? others (.text first))
    (found : Entries.find? tree (.text first) = Entries.find? after (.text first)) (more : List String) :
    PlacedAt entries tree (first :: more) ↔ PlacedAt others after (first :: more) := by
  unfold PlacedAt
  rw [List.map_cons, ending, ending, given, found]

/-- The first key of a path decides which entry puts a value in place at its end. -/
theorem placedAt_cons (absent : Entries.find? rest (.text part) = none) {after : Entries}
    (others : ∀ other, other ≠ part → Entries.find? after (.text other) = Entries.find? tree (.text other))
    (path : List String) :
    PlacedAt ((.text part, value) :: rest) tree path ↔
      PlacedAt [(.text part, value)] tree path ∨ PlacedAt rest after path := by
  cases path with
  | nil => exact ⟨fun placed => absurd placed placedAt_nil, fun placed => placed.elim id nofun⟩
  | cons first more =>
      by_cases same : first = part
      · subst same
        rw [or_iff_left (placedAt_absent absent more)]
        exact placedAt_congr ((Entries.find?_head _ value rest).trans (Entries.find?_head _ value []).symm) rfl more
      · rw [or_iff_right (placedAt_elsewhere same more)]
        exact placedAt_congr (Entries.find?_tail (text_face_ne same) value rest) (others first same).symm more

/-- An entry that takes the place of what is there does so at its own key. -/
theorem placedAt_instead
    (apart : ∀ inner old, value = .dict inner → Entries.find? tree (.text part) ≠ some (.dict old))
    (path : List String) : PlacedAt [(.text part, value)] tree path ↔ path = [part] := by
  cases path with
  | nil => exact ⟨fun placed => absurd placed placedAt_nil, nofun⟩
  | cons first more =>
      by_cases same : first = part
      · subst same
        unfold PlacedAt
        rw [List.map_cons, ending_placed (Entries.find?_head _ value []) apart, Ending.placing.injEq,
          List.map_eq_nil_iff, List.cons.injEq, and_iff_right rfl]
      · exact ⟨fun placed => absurd placed (placedAt_elsewhere same more),
          fun whole => absurd (List.cons.inj whole).1 same⟩

/-- An entry that is merged into a mapping puts values in place below its key. -/
theorem placedAt_inside (found : Entries.find? tree (.text part) = some (.dict old)) (path : List String) :
    PlacedAt [(.text part, .dict inner)] tree path ↔ ∃ more, path = part :: more ∧ PlacedAt inner old more := by
  cases path with
  | nil => exact ⟨fun placed => absurd placed placedAt_nil, nofun⟩
  | cons first more =>
      by_cases same : first = part
      · subst same
        unfold PlacedAt
        rw [List.map_cons, ending_inside (Entries.find?_head _ (Value.dict inner) []) found]
        exact ⟨fun ends => ⟨more, rfl, ends⟩, fun ⟨_, whole, ends⟩ => (List.cons.inj whole).2 ▸ ends⟩
      · exact ⟨fun placed => absurd placed (placedAt_elsewhere same more),
          fun ⟨_, whole, _⟩ => absurd (List.cons.inj whole).1 same⟩

/-- Laying touches just the names of the paths at which values are put in place. -/
def Names (base : List String) (entries : Entries) (settings : Settings) (laid : Laid) : Prop :=
  laid.result = .ok () ∧ ∀ key, key ∈ laid.settings.modified ↔
    key ∈ settings.modified ∨ ∃ path, PlacedAt entries settings.tree path ∧ key = .text (dotted (base ++ path))

/-- What an entry touches, if it is known what its parts would touch in a mapping that is there. -/
theorem overlayEntry_names {base : List String} (given : ∀ name ∈ base, name ≠ "") {settings : Settings}
    {part : String} {value : Value}
    (within : ∀ inner old, value = .dict inner → Names (base ++ [part]) inner ⟨old, settings.modified⟩
      (overlay (.text (dotted (base ++ [part]))) ⟨old, settings.modified⟩ inner)) :
    Names base [(.text part, value)] settings
      (overlayEntry (.text (dotted base)) (.text part) settings value) := by
  cases overlayEntry_laid (.text (dotted base)) (.text part) settings value with
  | nameless fault unnamed lays => exact nomatch (below_dotted given part).symm.trans unnamed
  | inside name inner old merged title mapping found merges lays =>
      cases (below_dotted given part).symm.trans title
      subst mapping merges
      obtain ⟨ends, knows⟩ := within inner old rfl
      rw [lays]
      refine ⟨ends, fun key => (knows key).trans (or_congr_right ?_)⟩
      simp only [placedAt_inside found, List.append_assoc, List.singleton_append]
      constructor
      · rintro ⟨more, placed, rfl⟩
        exact ⟨_, ⟨more, rfl, placed⟩, rfl⟩
      · rintro ⟨_, ⟨more, rfl, placed⟩, rfl⟩
        exact ⟨more, placed, rfl⟩
  | instead name title apart lays =>
      cases (below_dotted given part).symm.trans title
      rw [lays]
      refine ⟨rfl, fun key => mem_note_iff.trans (or_congr_right ?_)⟩
      simp only [placedAt_instead apart, exists_eq_left]

theorem overlay_names {base : List String} (given : ∀ name ∈ base, name ≠ "") (settings : Settings)
    {entries : Entries} (named : Value.Named (· ≠ "") (.dict entries)) :
    Names base entries settings (overlay (.text (dotted base)) settings entries) := by
  match entries, named with
  | [], named =>
      refine ⟨rfl, fun key => (or_iff_left ?_).symm⟩
      rintro ⟨path, placed, -⟩
      cases path <;> cases placed
  | (key, value) :: rest, named =>
      obtain ⟨part, rfl, filled⟩ := named.name List.mem_cons_self
      have longer : ∀ name ∈ base ++ [part], name ≠ "" :=
        List.forall_mem_append.mpr ⟨given, List.forall_mem_singleton.mpr filled⟩
      let laid := overlayEntry (.text (dotted base)) (.text part) settings value
      obtain ⟨ends, knows⟩ : Names base [(.text part, value)] settings laid :=
        overlayEntry_names given fun inner old mapping => by
          have member : (Key.text part, Value.dict inner) ∈ (Key.text part, value) :: rest :=
            mapping ▸ List.mem_cons_self
          have : sizeOf inner < sizeOf ((Key.text part, value) :: rest) := sizeOf_inner member
          exact overlay_names longer ⟨old, settings.modified⟩ (named.part member)
      rcases overlay_cons (.text (dotted base)) (.text part) settings value rest with ⟨-, goes⟩ | ⟨⟨_, fails⟩, -⟩
      case inr => exact nomatch ends.symm.trans fails
      obtain ⟨finished, learns⟩ := overlay_names given laid.settings named.tail
      have kept (other : String) (different : other ≠ part) :
          Entries.find? laid.settings.tree (.text other) = Entries.find? settings.tree (.text other) :=
        overlayEntry_other (text_face_ne different)
      have absent : Entries.find? rest (.text part) = none :=
        Entries.find?_absent (List.nodup_cons.mp named.faces).1
      rw [goes]
      refine ⟨finished, fun key => ?_⟩
      rw [learns, knows, or_assoc, ← exists_or]
      refine or_congr_right (exists_congr fun path => ?_)
      rw [placedAt_cons absent kept, or_and_right]
termination_by sizeOf entries

/-! ### The same document once more -/

/-- A value holds another one that is no mapping if it is that, and a mapping if it is one that holds all its parts
under their keys. -/
inductive Holds : Value → Value → Prop where
  | dict {tree entries : Entries} (keys : ∀ key value, (key, value) ∈ entries → Entries.has tree key = true)
      (parts : ∀ key value held, (key, value) ∈ entries → Entries.find? tree key = some held → Holds held value) :
      Holds (.dict tree) (.dict entries)
  | other {value : Value} (shapeless : value.entries? = none) : Holds value value

theorem holds_self {fits : String → Prop} (named : value.Named fits) : Holds value value := by
  induction named with
  | dict keys _ parts ih =>
      refine .dict (fun key value member => Entries.has_of_find? (Entries.find?_of_mem keys member))
        fun key value held member found => ?_
      cases (Entries.find?_of_mem keys member).symm.trans found
      exact ih _ member
  | other shapeless => exact .other shapeless

/-- Settings hold what was laid over them. -/
theorem overlay_holds {fits : String → Prop} {name : Key} {settings : Settings} {entries : Entries}
    (named : Value.Named fits (.dict entries)) (ends : (overlay name settings entries).result = .ok ()) :
    Holds (.dict (overlay name settings entries).settings.tree) (.dict entries) := by
  refine .dict (fun key value member => ?_) fun key value held member found => ?_
  · cases overlay_laidAt named.faces ends key with
    | kept absent => exact nomatch absent.symm.trans (Entries.find?_of_mem named.faces member)
    | placed _ _ _ stands => exact Entries.has_of_find? stands
    | merged _ _ _ _ _ _ _ stands => exact Entries.has_of_find? stands
  · have given := Entries.find?_of_mem named.faces member
    cases overlay_laidAt named.faces ends key with
    | kept absent => exact nomatch absent.symm.trans given
    | placed other told apart stands =>
        cases told.symm.trans given
        cases stands.symm.trans found
        exact holds_self (named.part member)
    | merged inner old title modified told there whole stands =>
        cases told.symm.trans given
        cases stands.symm.trans found
        have : sizeOf inner < sizeOf entries := sizeOf_inner member
        exact overlay_holds (named.part member) whole
termination_by sizeOf entries

/-- What settings hold may be laid over them. -/
theorem overlay_held (name : Key) (settings : Settings) {entries : Entries}
    (holds : Holds (.dict settings.tree) (.dict entries)) :
    (overlay name settings entries).settings.tree = settings.tree := by
  cases holds with
  | other shapeless => cases shapeless
  | dict keys parts =>
  refine overlay_keeps (fun after => after.tree = settings.tree) rfl fun after key value member same => ?_
  rcases Entries.has_cases settings.tree key with ⟨held, found⟩ | ⟨missing, -⟩
  case inr => exact nomatch (keys key value member).symm.trans missing
  have part := parts key value held member found
  rw [← same] at found
  cases overlayEntry_laid name key after value with
  | nameless fault named lays => rwa [lays]
  | inside title inner old merged named mapping there merges lays =>
      subst mapping merges
      cases found.symm.trans there
      have : sizeOf inner < sizeOf entries := sizeOf_inner member
      have whole := overlay_held title ⟨old, after.modified⟩ part
      rw [lays, whole]
      exact (Entries.put_found there).trans same
  | instead title named apart lays =>
      rw [lays]
      cases part with
      | dict => exact absurd found (apart _ _ rfl)
      | other shapeless => exact (Entries.put_found found).trans same
termination_by sizeOf entries

/-! ### Loading -/

theorem loadDocument_whole (checked : validate (.dict entries) = .ok [])
    (ends : (overlay top settings entries).result = .ok ()) :
    settings.loadDocument (.dict entries) = ⟨(overlay top settings entries).settings, .ok true, []⟩ := by
  simp only [loadDocument, checked, Value.entries?, Option.getD_some, ends]
  rfl

/-- A document whose keys are texts, none of them empty, is taken exactly if it has no problems, whatever the
settings are. Then along each path stands what the walk down the document and the settings ends with, and the
names of just those paths are touched at whose last key the document puts a value in place. -/
theorem loadDocument_walks (settings : Settings) {entries : Entries} (keys : Value.Named (· ≠ "") (.dict entries)) :
    let loaded := settings.loadDocument (.dict entries)
    (loaded.result = .ok true ↔ validate (.dict entries) = .ok []) ∧
    (loaded.result = .ok true →
      (∀ path, Stands entries settings.tree loaded.settings.tree path) ∧
      (∀ key, key ∈ loaded.settings.modified ↔
        key ∈ settings.modified ∨ ∃ path, PlacedAt entries settings.tree path ∧ key = .text (dotted path)) ∧
      Holds (.dict loaded.settings.tree) (.dict entries)) := by
  intro loaded
  have names : Names [] entries settings (overlay top settings entries) :=
    overlay_names (List.forall_mem_nil _) settings keys
  have whole (checked : validate (.dict entries) = .ok []) :
      settings.loadDocument (.dict entries) = ⟨(overlay top settings entries).settings, .ok true, []⟩ :=
    loadDocument_whole checked names.1
  refine ⟨⟨loadDocument_checked, fun checked => congrArg Loaded.result (whole checked)⟩, fun taken => ?_⟩
  have laid : loaded.settings = (overlay top settings entries).settings :=
    congrArg Loaded.settings (whole (loadDocument_checked taken))
  obtain ⟨ends, touched⟩ := names
  rw [laid]
  exact ⟨overlay_stands keys ends, touched, overlay_holds keys ends⟩

end Settings

end ChipEight
