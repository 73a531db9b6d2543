/-
This file says what comes of laying entries over settings: one entry after another takes its place or is
merged into a mapping that is there, until a name has a number that cannot be shown.
-/

import ChipEight.Proofs.Value.Distinct
import ChipEight.Settings

namespace ChipEight.Settings

variable {path key : Key} {settings : Settings} {value : Value} {entries : Entries}

/-- What comes of an entry: it has no name, it is laid over a mapping, or its value is put in place. -/
inductive EntryLaid (path key : Key) (settings : Settings) (value : Value) : Prop where
  | nameless (fault : Fault) (named : below path key = .error fault)
      (lays : overlayEntry path key settings value = ⟨settings, .error fault⟩)
  | inside (name : Key) (inner old : Entries) (merged : Laid) (named : below path key = .ok name)
      (mapping : value = .dict inner) (found : Entries.find? settings.tree key = some (.dict old))
      (merges : merged = overlay name ⟨old, settings.modified⟩ inner)
      (lays : overlayEntry path key settings value =
        ⟨⟨Entries.put settings.tree key (.dict merged.settings.tree), merged.settings.modified⟩,
          merged.result⟩)
  | instead (name : Key) (named : below path key = .ok name)
      (apart : ∀ inner old, value = .dict inner → Entries.find? settings.tree key ≠ some (.dict old))
      (lays : overlayEntry path key settings value =
        ⟨⟨Entries.put settings.tree key value, note settings.modified name⟩, .ok ()⟩)

theorem overlayEntry_laid (path key : Key) (settings : Settings) (value : Value) :
    EntryLaid path key settings value := by
  cases named : below path key with
  | error fault => exact .nameless fault named (by rw [overlayEntry, named])
  | ok name =>
      cases value with
      | dict inner =>
          cases found : Entries.find? settings.tree key with
          | none =>
              refine .instead name named (fun _ _ _ => by rw [found]; nofun) ?_
              rw [overlayEntry, named]
              simp only [found]
          | some held =>
              cases held with
              | dict old =>
                  refine .inside name inner old _ named rfl found rfl ?_
                  rw [overlayEntry, named]
                  simp only [found]
              | _ =>
                  refine .instead name named (fun _ _ _ => by rw [found]; nofun) ?_
                  rw [overlayEntry, named]
                  simp only [found]
      | _ => exact .instead name named nofun (by rw [overlayEntry, named])

/-- Entries are laid one after another until one has a fault. -/
theorem overlay_cons (path key : Key) (settings : Settings) (value : Value) (rest : Entries) :
    let first := overlayEntry path key settings value
    first.result = .ok () ∧ overlay path settings ((key, value) :: rest) = overlay path first.settings rest ∨
      (∃ fault, first.result = .error fault) ∧ overlay path settings ((key, value) :: rest) = first := by
  intro first
  rw [overlay]
  cases ends : first.result with
  | ok done => exact .inl ⟨rfl, rfl⟩
  | error fault => exact .inr ⟨⟨fault, rfl⟩, rfl⟩

/-- What every entry keeps is kept by all of them, also if there is a fault. -/
theorem overlay_keeps (holds : Settings → Prop) (start : holds settings)
    (step : ∀ settings key value, (key, value) ∈ entries → holds settings →
      holds (overlayEntry path key settings value).settings) :
    holds (overlay path settings entries).settings := by
  induction entries generalizing settings with
  | nil => exact start
  | cons entry rest ih =>
      obtain ⟨key, value⟩ := entry
      have next := step settings key value List.mem_cons_self start
      rcases overlay_cons path key settings value rest with ⟨-, goes⟩ | ⟨-, stops⟩
      · rw [goes]
        exact ih next fun settings key value member => step settings key value (List.mem_cons_of_mem _ member)
      · rw [stops]
        exact next

/-! ### Names that cannot be shown -/

theorem below_cases (path key : Key) :
    (∃ name, below path key = .ok name ∧
      (path.toValue.isShowable = true → key.toValue.isShowable = true → name.toValue.isShowable = true)) ∨
    below path key = .error (.unfit .longNumber) ∧
      (path.toValue.isShowable = true → key.toValue.isShowable = false) := by
  unfold below Value.show?
  split
  · cases outer : path.toValue.isShowable with
    | false => exact .inr ⟨rfl, nofun⟩
    | true =>
        cases inner : key.toValue.isShowable with
        | false => exact .inr ⟨rfl, fun _ => rfl⟩
        | true => exact .inl ⟨_, rfl, fun _ _ => rfl⟩
  · exact .inl ⟨key, rfl, fun _ shown => shown⟩

theorem showableEntries_cons (key : Key) (value : Value) (rest : Entries) :
    Value.showableEntries ((key, value) :: rest) =
      (key.toValue.isShowable && value.isShowable && Value.showableEntries rest) := by
  cases key <;> rfl

mutual
/-- The only fault is a number of the entry that cannot be shown. -/
theorem overlayEntry_result (path key : Key) (settings : Settings) (value : Value) :
    (overlayEntry path key settings value).result = .ok () ∨
      (overlayEntry path key settings value).result = .error (.unfit .longNumber) ∧
        (path.toValue.isShowable = true → (key.toValue.isShowable && value.isShowable) = false) := by
  unfold overlayEntry
  rcases below_cases path key with ⟨name, named, shown⟩ | ⟨unnamed, hidden⟩
  · rw [named]
    dsimp only
    split
    case h_1 inner =>
        split
        case h_1 old found =>
            dsimp only
            refine (overlay_result name ⟨old, settings.modified⟩ inner).imp_right ?_
            rintro ⟨fails, hidden⟩
            refine ⟨fails, fun outer => ?_⟩
            cases whole : key.toValue.isShowable with
            | false => rfl
            | true => exact hidden (shown outer whole)
        case h_2 => exact .inl rfl
    case h_2 => exact .inl rfl
  · rw [unnamed]
    exact .inr ⟨rfl, fun outer => by rw [hidden outer, Bool.false_and]⟩

/-- The only fault is a number of the entries that cannot be shown. -/
theorem overlay_result (path : Key) (settings : Settings) (entries : Entries) :
    (overlay path settings entries).result = .ok () ∨
      (overlay path settings entries).result = .error (.unfit .longNumber) ∧
        (path.toValue.isShowable = true → Value.showableEntries entries = false) := by
  cases entries with
  | nil => exact .inl rfl
  | cons entry rest =>
      obtain ⟨key, value⟩ := entry
      rw [showableEntries_cons]
      rcases overlay_cons path key settings value rest with ⟨-, goes⟩ | ⟨⟨fault, fails⟩, stops⟩
      · rw [goes]
        refine (overlay_result path _ rest).imp_right fun ⟨ends, hidden⟩ => ⟨ends, fun outer => ?_⟩
        rw [hidden outer, Bool.and_false]
      · rw [stops]
        refine (overlayEntry_result path key settings value).imp_right fun ⟨ends, hidden⟩ =>
          ⟨ends, fun outer => ?_⟩
        rw [hidden outer, Bool.false_and]
end

end ChipEight.Settings
