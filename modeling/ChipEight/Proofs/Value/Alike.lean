/-
This file compares values up to the order of the keys of their mappings. Values that are alike have the same
kinds everywhere, where `Value.same` takes numbers of all kinds for each other; those of a JSON text that
are alike are the same.
-/

import ChipEight.Proofs.Value.Distinct
import Mathlib.Data.List.Nodup
import Mathlib.Data.List.Perm.Subperm

namespace ChipEight

/-- Only a text stands for a text. -/
theorem Key.eq_text {key : Key} {name : String} (same : key.face = (Key.text name).face) : key = .text name := by
  cases key
  case text characters => exact congrArg Key.text (Face.text.inj same)
  case float number | moment time =>
    simp only [Key.face] at same
    split at same <;> cases same
  all_goals cases same

namespace Entries

variable {A : Type} {first second entries : List (Key × A)} {key : Key} {value : A}

/-- A key is found if some key stands for the same. -/
theorem has_iff : has entries key = true ↔ key.face ∈ faces entries := by
  unfold has
  induction entries with
  | nil => exact ⟨nofun, nofun⟩
  | cons entry rest ih =>
      obtain ⟨present, old⟩ := entry
      change _ ↔ key.face ∈ present.face :: faces rest
      rw [find?, List.mem_cons, ← ih, Key.same]
      split
      case isTrue same => exact ⟨fun _ => .inl (eq_of_beq same).symm, fun _ => rfl⟩
      case isFalse other =>
        refine ⟨.inr, fun either => either.resolve_left fun same => other ?_⟩
        exact beq_of_eq same.symm

/-- The value of a key is that of an entry whose key stands for the same. -/
theorem find?_entry (found : find? entries key = some value) :
    ∃ present, (present, value) ∈ entries ∧ key.face = present.face := by
  induction entries with
  | nil => exact nomatch found
  | cons entry rest ih =>
      obtain ⟨present, old⟩ := entry
      rw [find?] at found
      split at found
      case isTrue same =>
        cases found
        exact ⟨present, List.mem_cons_self, (eq_of_beq same).symm⟩
      case isFalse =>
        obtain ⟨other, member, same⟩ := ih found
        exact ⟨other, List.mem_cons_of_mem _ member, same⟩

/-- What is there may be put again. -/
theorem put_found (found : find? entries key = some value) : put entries key value = entries := by
  induction entries with
  | nil => exact nomatch found
  | cons entry rest ih =>
      obtain ⟨present, old⟩ := entry
      rw [find?] at found
      rw [put]
      split
      case isTrue same =>
        rw [if_pos same] at found
        cases found
        rfl
      case isFalse other =>
        rw [if_neg other] at found
        rw [ih found]

/-- What is put under a key that is there takes the place of the old value. -/
theorem put_split (found : find? entries key = some value) (new : A) :
    ∃ before present behind, entries = before ++ (present, value) :: behind ∧
      put entries key new = before ++ (present, new) :: behind := by
  induction entries with
  | nil => exact nomatch found
  | cons entry rest ih =>
      obtain ⟨present, old⟩ := entry
      rw [find?] at found
      rw [put]
      split
      case isTrue same =>
        rw [if_pos same] at found
        cases found
        exact ⟨[], present, rest, rfl, rfl⟩
      case isFalse other =>
        rw [if_neg other] at found
        obtain ⟨before, name, behind, whole, puts⟩ := ih found
        exact ⟨(present, old) :: before, name, behind, congrArg _ whole, congrArg _ puts⟩

/-- Of two values that are put under one key the later one stays. -/
theorem put_put (entries : List (Key × A)) (key : Key) (first later : A) :
    put (put entries key first) key later = put entries key later := by
  induction entries with
  | nil => exact if_pos (Key.sameSelf key)
  | cons entry rest ih =>
      obtain ⟨present, old⟩ := entry
      by_cases same : present.same key = true
      · rw [put, put, if_pos same, if_pos same, put, if_pos same]
      · rw [put, put, if_neg same, if_neg same, put, if_neg same, ih]

/-- What holds of all keys and values still does when a key and a value of which it holds are put. -/
theorem forall_put {fits : Key → Prop} {holds : A → Prop}
    (all : ∀ present old, (present, old) ∈ entries → fits present ∧ holds old) (fit : fits key)
    (new : holds value) : ∀ entry ∈ put entries key value, fits entry.1 ∧ holds entry.2 := by
  induction entries with
  | nil => exact List.forall_mem_singleton.mpr ⟨fit, new⟩
  | cons entry rest ih =>
      obtain ⟨present, old⟩ := entry
      have here := all present old List.mem_cons_self
      have later := fun other found member => all other found (List.mem_cons_of_mem _ member)
      rw [put]
      split
      · exact List.forall_mem_cons.mpr ⟨⟨here.1, new⟩, fun other member => later _ _ member⟩
      · exact List.forall_mem_cons.mpr ⟨here, ih later⟩

theorem has_of_find? (found : find? entries key = some value) : has entries key = true := by
  unfold has
  rw [found]
  rfl

theorem has_cases (entries : List (Key × A)) (key : Key) :
    (∃ value, find? entries key = some value) ∨ has entries key = false ∧ find? entries key = none := by
  unfold has
  cases find? entries key with
  | some value => exact .inl ⟨value, rfl⟩
  | none => exact .inr ⟨rfl, rfl⟩

theorem find?_absent (absent : key.face ∉ faces entries) : find? entries key = none := by
  rcases has_cases entries key with ⟨value, found⟩ | ⟨-, missing⟩
  · exact absurd (has_iff.mp (has_of_find? found)) absent
  · exact missing

theorem has_of_names {old : List (Key × A)} (all : ∀ key ∈ names old, has entries key = true)
    {key : Key} (held : has old key = true) : has entries key = true := by
  obtain ⟨entry, member, same⟩ := List.mem_map.mp (has_iff.mp held)
  have present := has_iff.mp (all entry.1 (List.mem_map_of_mem member))
  exact has_iff.mpr (same ▸ present)

/-- Mappings with the same keys, each once, have as many. -/
theorem length_of_has (here : (faces first).Nodup) (there : (faces second).Nodup)
    (names : ∀ key, has first key = has second key) : first.length = second.length := by
  have within {others : List (Key × A)} {face : Face} (member : face ∈ faces others) :
      ∃ key : Key, key.face = face := by
    obtain ⟨entry, -, same⟩ := List.mem_map.mp member
    exact ⟨entry.1, same⟩
  have permuted : (faces first).Perm (faces second) := by
    refine (List.perm_ext_iff_of_nodup here there).mpr fun face => ⟨fun member => ?_, fun member => ?_⟩
    · obtain ⟨key, rfl⟩ := within member
      exact has_iff.mp (names key ▸ has_iff.mpr member)
    · obtain ⟨key, rfl⟩ := within member
      exact has_iff.mp (names key ▸ has_iff.mpr member)
  simpa only [faces, List.length_map] using permuted.length_eq

end Entries

theorem Place.same_self {place : Place} (placed : place ≠ .nowhere) : place.same place = true := by
  cases place with
  | «at» units => exact beq_self_eq_true units
  | nowhere => exact absurd rfl placed
  | below | above => rfl

namespace Value

/-! ### Values of a JSON text -/

/-- A value that a JSON text stands for: there are no days and no moments, every number has a place, and
the keys of a mapping are texts, each of them once. -/
inductive IsJson : Value → Prop where
  | null : IsJson .null
  | bool (flag : Bool) : IsJson (.bool flag)
  | int (number : Int) : IsJson (.int number)
  | float {number : Double} (placed : number.isNan = false) : IsJson (.float number)
  | text (characters : String) : IsJson (.text characters)
  | list {items : List Value} (parts : ∀ item ∈ items, IsJson item) : IsJson (.list items)
  | dict {entries : Entries} (keys : (Entries.faces entries).Nodup)
      (named : ∀ entry ∈ entries, ∃ name, entry.1 = .text name)
      (parts : ∀ entry ∈ entries, IsJson entry.2) : IsJson (.dict entries)

theorem IsJson.distinct {value : Value} (json : value.IsJson) : value.Distinct := by
  induction json with
  | null => exact .single rfl
  | bool flag => exact .single rfl
  | int number => exact .single rfl
  | float placed => exact .single rfl
  | text characters => exact .single rfl
  | list parts ih => exact .list ih
  | dict keys named parts ih => exact .dict keys ih

section

variable {entries others : Entries} {key : Key} {value : Value}

theorem IsJson.named (json : IsJson (.dict entries)) (member : (key, value) ∈ entries) :
    ∃ name, key = .text name := by
  cases json with
  | dict keys named parts => exact named _ member

theorem IsJson.part (json : IsJson (.dict entries)) (member : (key, value) ∈ entries) : value.IsJson := by
  cases json with
  | dict keys named parts => exact parts _ member

theorem IsJson.put (json : IsJson (.dict entries)) (name : String) (new : value.IsJson) :
    IsJson (.dict (Entries.put entries (.text name) value)) := by
  have all := Entries.forall_put (fun _ _ member => ⟨json.named member, json.part member⟩) ⟨name, rfl⟩ new
  exact .dict (Entries.put_distinct json.distinct.faces) (fun entry member => (all entry member).1)
    fun entry member => (all entry member).2

end

/-- Names that differ are keys that differ. -/
theorem record_faces {fields : List (String × Value)} (single : (fields.map Prod.fst).Nodup) :
    (Entries.faces (fields.map fun field => (Key.text field.1, field.2))).Nodup := by
  have faces : Entries.faces (fields.map fun field => (Key.text field.1, field.2)) =
      (fields.map Prod.fst).map Face.text := by
    simp only [Entries.faces, List.map_map]
    rfl
  rw [faces]
  exact List.Nodup.map (fun _ _ => Face.text.inj) single

theorem IsJson.record {fields : List (String × Value)} (single : (fields.map Prod.fst).Nodup)
    (parts : ∀ field ∈ fields, field.2.IsJson) : (Value.record fields).IsJson := by
  refine .dict (record_faces single) (fun entry member => ?_) fun entry member => ?_
  · obtain ⟨field, -, rfl⟩ := List.mem_map.mp member
    exact ⟨field.1, rfl⟩
  · obtain ⟨field, within, rfl⟩ := List.mem_map.mp member
    exact parts field within

/-! ### Sameness part by part -/

theorem sameItems_iff {first second : List Value} : sameItems first second = true ↔
    first.length = second.length ∧ ∀ (place : Nat) (item other : Value),
      first[place]? = some item → second[place]? = some other → item.same other = true := by
  induction first generalizing second with
  | nil => cases second <;> simp [sameItems]
  | cons here rest ih =>
      cases second with
      | nil => simp [sameItems]
      | cons there others =>
          rw [sameItems, Bool.and_eq_true, ih]
          constructor
          · rintro ⟨same, length, parts⟩
            refine ⟨congrArg (· + 1) length, fun place item other held found => ?_⟩
            cases place with
            | zero =>
                cases held
                cases found
                exact same
            | succ place => exact parts place item other held found
          · rintro ⟨length, parts⟩
            exact ⟨parts 0 here there rfl rfl, Nat.succ.inj length, fun place => parts (place + 1)⟩

theorem sameEntries_iff {first second : Entries} : sameEntries first second = true ↔
    ∀ key value, (key, value) ∈ first →
      ∃ other, Entries.find? second key = some other ∧ value.same other = true := by
  induction first with
  | nil => simp [sameEntries]
  | cons entry rest ih =>
      obtain ⟨key, value⟩ := entry
      rw [sameEntries, Bool.and_eq_true, ih]
      constructor
      · rintro ⟨here, others⟩ name part member
        rcases List.mem_cons.mp member with same | later
        · cases same
          cases found : Entries.find? second key with
          | none =>
              rw [found] at here
              cases here
          | some other =>
              rw [found] at here
              exact ⟨other, rfl, here⟩
        · exact others name part later
      · intro parts
        obtain ⟨other, found, same⟩ := parts key value List.mem_cons_self
        refine ⟨?_, fun name part later => parts name part (List.mem_cons_of_mem _ later)⟩
        rw [found]
        exact same

theorem same_dict_iff {first second : Entries} : (Value.dict first).same (.dict second) = true ↔
    first.length = second.length ∧ sameEntries first second = true := by
  rw [same, Bool.and_eq_true, beq_iff_eq]

/-! ### Likeness -/

/-- Values that differ at most in the order of the keys of their mappings. -/
inductive Alike : Value → Value → Prop where
  | refl (value : Value) : Alike value value
  | list {first second : List Value} (length : first.length = second.length)
      (parts : ∀ (place : Nat) (item other : Value), first[place]? = some item →
        second[place]? = some other → Alike item other) : Alike (.list first) (.list second)
  | dict {first second : Entries} (length : first.length = second.length)
      (names : ∀ key, Entries.has first key = Entries.has second key)
      (parts : ∀ (key : Key) (value other : Value), Entries.find? first key = some value →
        Entries.find? second key = some other → Alike value other) : Alike (.dict first) (.dict second)

namespace Alike

variable {first second : Entries} {key : Key} {value other : Value}

theorem names (alike : Alike (.dict first) (.dict second)) (key : Key) :
    Entries.has first key = Entries.has second key := by
  cases alike with
  | refl => rfl
  | dict length names parts => exact names key

theorem parts (alike : Alike (.dict first) (.dict second)) (here : Entries.find? first key = some value)
    (there : Entries.find? second key = some other) : Alike value other := by
  cases alike with
  | refl =>
      cases here.symm.trans there
      exact .refl value
  | dict length names parts => exact parts key value other here there

/-- What is found in a mapping has its like in any mapping that is like it. -/
theorem found (alike : Alike (.dict first) (.dict second)) (here : Entries.find? first key = some value) :
    ∃ other, Entries.find? second key = some other ∧ Alike value other := by
  rcases Entries.has_cases second key with ⟨other, there⟩ | ⟨missing, -⟩
  · exact ⟨other, there, alike.parts here there⟩
  · rw [← alike.names key, Entries.has_of_find? here] at missing
    cases missing

theorem dict_left (alike : Alike (.dict first) value) : ∃ entries, value = .dict entries := by
  cases alike with
  | refl => exact ⟨first, rfl⟩
  | dict => exact ⟨_, rfl⟩

theorem dict_right (alike : Alike value (.dict second)) : ∃ entries, value = .dict entries := by
  cases alike with
  | refl => exact ⟨second, rfl⟩
  | dict => exact ⟨_, rfl⟩

theorem isTrue {value other : Value} (alike : Alike value other) : value.isTrue = other.isTrue := by
  have empty {A B : Type} {items : List A} {others : List B} (length : items.length = others.length) :
      items.isEmpty = others.isEmpty := by
    cases items <;> cases others <;> first | rfl | cases length
  cases alike with
  | refl => rfl
  | list length parts => exact congrArg Bool.not (empty length)
  | dict length names parts => exact congrArg Bool.not (empty length)

/-- Mappings with each key once are alike if they have the same keys and these lead to values that are. -/
theorem of_parts (here : (Entries.faces first).Nodup) (there : (Entries.faces second).Nodup)
    (names : ∀ key, Entries.has first key = Entries.has second key)
    (parts : ∀ key value other, Entries.find? first key = some value →
      Entries.find? second key = some other → Alike value other) :
    Alike (.dict first) (.dict second) :=
  .dict (Entries.length_of_has here there names) names parts

/-- Mappings with as many keys, each once, are alike if what one of them has is alike in the other. -/
theorem of_found (here : (Entries.faces first).Nodup) (there : (Entries.faces second).Nodup)
    (length : first.length = second.length)
    (found : ∀ entry ∈ first, ∃ other, Entries.find? second entry.1 = some other ∧ Alike entry.2 other) :
    Alike (.dict first) (.dict second) := by
  have within : Entries.faces first ⊆ Entries.faces second := by
    intro face member
    obtain ⟨entry, listed, rfl⟩ := List.mem_map.mp member
    obtain ⟨other, held, -⟩ := found entry listed
    exact Entries.has_iff.mp (Entries.has_of_find? held)
  have all : (Entries.faces first).Perm (Entries.faces second) := by
    refine (here.subperm within).perm_of_length_le ?_
    exact Nat.le_of_eq (by simp only [Entries.faces, List.length_map, length])
  refine .of_parts here there (fun key => ?_) fun key value other held wants => ?_
  · rw [Bool.eq_iff_iff, Entries.has_iff, Entries.has_iff]
    exact all.mem_iff
  · obtain ⟨present, member, same⟩ := Entries.find?_entry held
    obtain ⟨like, leads, alike⟩ := found _ member
    rw [Entries.find?_congr same, leads] at wants
    cases wants
    exact alike

end Alike

/-! ### Deciding likeness -/

mutual
/-- Whether values are alike, computed. Mappings with a key in two places are not taken. -/
def isAlike : Value → Value → Bool
  | list first, list second => areAlike first second
  | dict first, dict second =>
      decide ((Entries.faces first).Nodup ∧ (Entries.faces second).Nodup ∧ first.length = second.length) &&
        haveAlike first second
  | first, second => first.toKey?.any fun key => second.toKey? == some key

def areAlike : List Value → List Value → Bool
  | [], [] => true
  | first :: firsts, second :: seconds => first.isAlike second && areAlike firsts seconds
  | _, _ => false

/-- Each entry has its like among others. -/
def haveAlike : List (Key × Value) → List (Key × Value) → Bool
  | [], _ => true
  | (key, first) :: rest, entries =>
      (match Entries.find? entries key with
        | some second => first.isAlike second
        | none => false) && haveAlike rest entries
end

theorem toValue_toKey? {value : Value} {key : Key} (known : value.toKey? = some key) : key.toValue = value := by
  cases value with
  | list items | dict entries => cases known
  | _ =>
      cases known
      rfl

mutual
theorem isAlike_sound {first second : Value} (tells : first.isAlike second = true) : Alike first second := by
  have scalar (told : (first.toKey?.any fun key => second.toKey? == some key) = true) : Alike first second := by
    obtain ⟨key, here, same⟩ := (Option.any_eq_true _ _).mp told
    rw [← toValue_toKey? here, ← toValue_toKey? (eq_of_beq same)]
    exact .refl _
  cases first with
  | list items =>
      cases second with
      | list others => exact .list (areAlike_sound tells).1 (areAlike_sound tells).2
      | _ => cases tells
  | dict entries =>
      cases second with
      | dict others =>
          obtain ⟨proper, found⟩ := Bool.and_eq_true_iff.mp tells
          obtain ⟨here, there, length⟩ := of_decide_eq_true proper
          exact .of_found here there length (haveAlike_sound found)
      | _ => cases tells
  | _ => exact scalar (by cases second <;> exact tells)

theorem areAlike_sound {first second : List Value} (tells : areAlike first second = true) :
    first.length = second.length ∧ ∀ (place : Nat) (item other : Value), first[place]? = some item →
      second[place]? = some other → Alike item other := by
  cases first with
  | nil =>
      cases second with
      | nil => exact ⟨rfl, fun place item other here => nomatch here⟩
      | cons => cases tells
  | cons item rest =>
      cases second with
      | nil => cases tells
      | cons other others =>
          obtain ⟨head, tail⟩ := Bool.and_eq_true_iff.mp tells
          obtain ⟨length, parts⟩ := areAlike_sound tail
          refine ⟨congrArg (· + 1) length, fun place part like here there => ?_⟩
          cases place with
          | zero =>
              cases here
              cases there
              exact isAlike_sound head
          | succ place => exact parts place part like here there

theorem haveAlike_sound {first second : Entries} (tells : haveAlike first second = true) :
    ∀ entry ∈ first, ∃ other, Entries.find? second entry.1 = some other ∧ Alike entry.2 other := by
  cases first with
  | nil => exact List.forall_mem_nil _
  | cons entry rest =>
      obtain ⟨key, value⟩ := entry
      obtain ⟨head, tail⟩ := Bool.and_eq_true_iff.mp tells
      refine List.forall_mem_cons.mpr ⟨?_, haveAlike_sound tail⟩
      cases found : Entries.find? second key with
      | none =>
          rw [found] at head
          cases head
      | some other =>
          rw [found] at head
          exact ⟨other, rfl, isAlike_sound head⟩
end

/-! ### Likeness and sameness -/

theorem IsJson.same_self {value : Value} (json : value.IsJson) : value.same value = true := by
  induction json with
  | null => rfl
  | bool flag =>
      change (Place.ofInt (if flag then 1 else 0)).same (Place.ofInt (if flag then 1 else 0)) = true
      exact Place.same_self nofun
  | int number =>
      change (Place.ofInt number).same (Place.ofInt number) = true
      exact Place.same_self nofun
  | @float number placed =>
      change (Place.ofDouble number).same (Place.ofDouble number) = true
      refine Place.same_self ?_
      unfold Place.ofDouble
      rw [placed, if_neg Bool.false_ne_true]
      split
      · exact nofun
      · split <;> exact nofun
  | text characters => simp [same]
  | list parts ih =>
      refine sameItems_iff.mpr ⟨rfl, fun place item other here there => ?_⟩
      cases here.symm.trans there
      exact ih item (List.mem_of_getElem? here)
  | dict keys named parts ih =>
      refine same_dict_iff.mpr ⟨rfl, sameEntries_iff.mpr fun key value member => ?_⟩
      exact ⟨value, Entries.find?_of_mem keys member, ih _ member⟩

theorem Alike.same {value other : Value} (alike : Alike value other) (distinct : value.Distinct)
    (json : other.IsJson) : value.same other = true := by
  induction alike with
  | refl value => exact json.same_self
  | list length parts ih =>
      refine sameItems_iff.mpr ⟨length, fun place item other here there => ?_⟩
      refine ih place item other here there (distinct.item item (List.mem_of_getElem? here)) ?_
      cases json with
      | list parts => exact parts other (List.mem_of_getElem? there)
  | dict length names parts ih =>
      refine same_dict_iff.mpr ⟨length, sameEntries_iff.mpr fun key value member => ?_⟩
      have here := Entries.find?_of_mem distinct.faces member
      obtain ⟨other, there, -⟩ := Alike.found (.dict length names parts) here
      obtain ⟨present, within⟩ := Entries.find?_mem there
      exact ⟨other, there, ih key value other here there (distinct.part member) (json.part within)⟩

end Value

end ChipEight
