/-
This file says when mappings with names are the same, and which dotted names are noted for what is touched.
-/

import ChipEight.Proofs.Settings.Merging
import ChipEight.Proofs.Settings.Paths

namespace ChipEight

/-! ### Mappings with names -/

/-- The keys of the mapping, and of those in it, are texts that fit, each of them once. What lists hold is
left open. -/
inductive Value.Named (fits : String → Prop) : Value → Prop where
  | dict {entries : Entries} (keys : (Entries.faces entries).Nodup)
      (named : ∀ entry ∈ entries, ∃ name, entry.1 = .text name ∧ fits name)
      (parts : ∀ entry ∈ entries, Named fits entry.2) : Named fits (.dict entries)
  | other {value : Value} (shapeless : value.entries? = none) : Named fits value

namespace Value.Named

variable {fits : String → Prop} {entries : Entries} {key : Key} {value : Value}

theorem faces (named : Named fits (.dict entries)) : (Entries.faces entries).Nodup := by
  cases named with
  | dict keys named parts => exact keys
  | other shapeless => cases shapeless

theorem name (named : Named fits (.dict entries)) (member : (key, value) ∈ entries) :
    ∃ name, key = .text name ∧ fits name := by
  cases named with
  | dict keys named parts => exact named _ member
  | other shapeless => cases shapeless

theorem part (named : Named fits (.dict entries)) (member : (key, value) ∈ entries) : value.Named fits := by
  cases named with
  | dict keys named parts => exact parts _ member
  | other shapeless => cases shapeless

theorem of_json (json : value.IsJson) : value.Named fun _ => True := by
  induction json with
  | dict keys named parts ih =>
      exact .dict keys (fun entry member => (named entry member).imp fun _ same => ⟨same, trivial⟩) ih
  | _ => exact .other rfl

end Value.Named

namespace Settings

variable {value inner : Value} {path base : List String} {name : String}

/-- What is found along a path in a value with a property has the property. -/
theorem Closed.find? {holds : Nat → Value → Prop} (closed : Closed holds) (room : Nat)
    (start : holds room value) (found : find? value path = some inner) : holds (room - path.length) inner := by
  induction path generalizing value room with
  | nil =>
      cases found
      exact start
  | cons part rest ih =>
      rw [find?_cons] at found
      obtain ⟨next, here, there⟩ := Option.bind_eq_some_iff.mp found
      rcases value.entries_cases with ⟨entries, rfl⟩ | shapeless
      · obtain ⟨present, member, -⟩ := Entries.find?_entry here
        have ends := ih _ (closed.part start member) there
        rwa [Nat.sub_sub, Nat.add_comm] at ends
      · cases value with
        | dict entries => cases shapeless
        | _ => cases here

/-! ### Differences -/

/-- There is nothing on both sides, or values that are the same. -/
def Agree : Option Value → Option Value → Prop
  | none, none => True
  | some value, some other => value.same other = true
  | _, _ => False

theorem Agree.isSome {one other : Option Value} (agree : Agree one other) : one.isSome = other.isSome := by
  cases one <;> cases other <;> first | rfl | exact agree.elim

theorem has_named (named : Value.Named (fun _ => True) (.dict entries)) {key : Key}
    (held : Entries.has entries key = true) : ∃ name, key = .text name := by
  obtain ⟨⟨present, value⟩, member, same⟩ := List.mem_map.mp (Entries.has_iff.mp held)
  obtain ⟨name, rfl, -⟩ := named.name member
  exact ⟨name, Key.eq_text same.symm⟩

/-- Mappings with names are the same if under each name they agree. -/
theorem same_of_agree {first second : Entries} (here : Value.Named (fun _ => True) (.dict first))
    (there : Value.Named (fun _ => True) (.dict second))
    (agree : ∀ name, Agree (Entries.find? first (.text name)) (Entries.find? second (.text name))) :
    (Value.dict first).same (.dict second) = true := by
  have names (key : Key) : Entries.has first key = Entries.has second key := by
    refine Bool.eq_iff_iff.mpr ⟨fun held => ?_, fun held => ?_⟩
    · obtain ⟨name, rfl⟩ := has_named here held
      exact (agree name).isSome.symm.trans held
    · obtain ⟨name, rfl⟩ := has_named there held
      exact (agree name).isSome.trans held
  refine Value.same_dict_iff.mpr ⟨Entries.length_of_has here.faces there.faces names, ?_⟩
  refine Value.sameEntries_iff.mpr fun key value member => ?_
  obtain ⟨name, rfl, -⟩ := here.name member
  have both := agree name
  rw [Entries.find?_of_mem here.faces member] at both
  cases found : Entries.find? second (.text name) with
  | none =>
      rw [found] at both
      exact both.elim
  | some other =>
      rw [found] at both
      exact ⟨other, rfl, both⟩

/-! ### Touched names -/

theorem mem_note {modified : List Key} {key other : Key} (known : other ∈ modified) :
    other ∈ note modified key := by
  unfold note
  split
  · exact known
  · exact List.mem_append_left _ known

/-- A name that is noted is there. -/
theorem note_mem (modified : List Key) (name : String) : Key.text name ∈ note modified (.text name) := by
  unfold note
  split
  case isTrue known =>
    obtain ⟨other, member, same⟩ := List.any_eq_true.mp known
    exact Key.eq_text (eq_of_beq same) ▸ member
  case isFalse => exact List.mem_append_right _ (List.mem_singleton.mpr rfl)

theorem mem_note_iff {modified : List Key} {key : Key} :
    key ∈ note modified (.text name) ↔ key ∈ modified ∨ key = .text name := by
  refine ⟨fun member => ?_, ?_⟩
  · unfold note at member
    split at member
    · exact .inl member
    · exact (List.mem_append.mp member).imp_right List.mem_singleton.mp
  · rintro (known | rfl)
    · exact mem_note known
    · exact note_mem modified name

/-! ### Loading -/

/-- A name of a path that can be told apart from others in a dotted name. -/
def IsPlain (name : String) : Prop := name ≠ "" ∧ '.' ∉ name.toList

/-- A key that stands for the path of a mapping. -/
inductive Leads : Key → List String → Prop where
  | top : Leads top []
  | name {name : String} (given : name ≠ "") : Leads (.text name) (parts name)

theorem below_leads {key : Key} (leads : Leads key base) {part : String} (plain : IsPlain part) :
    ∃ name, below key (.text part) = .ok (.text name) ∧ name ≠ "" ∧ parts name = base ++ [part] := by
  cases leads with
  | top => exact ⟨part, rfl, plain.1, parts_plain plain.2⟩
  | @name outer given =>
      have filled : (Key.text outer).toValue.isTrue = true := by simp [Key.toValue, Value.isTrue, given]
      have dotted : below (.text outer) (.text part) = .ok (.text (outer ++ "." ++ part)) := if_pos filled
      exact ⟨_, dotted, by simp, (parts_dotted outer part).trans (congrArg _ (parts_plain plain.2))⟩

/-! ### Resetting -/

theorem parts_ne_nil (name : String) : parts name ≠ [] := Text.splitOn_ne_nil '.' name

theorem reset_found (found : find? (.dict defaults) (parts name) = some value) (settings : Settings) :
    settings.reset name =
    ⟨put settings.tree value (parts name),
      (note settings.modified (.text name)).filter fun other => !other.same (.text name)⟩ := by
  unfold reset
  rw [found]
  rfl

end Settings

end ChipEight
