/-
This file says what is found under dotted names after one is set: what was set, and what was there under names
that do not meet it. Of two values under one name only the later one counts. Resetting sets the value that stood
there at first and forgets the name; the names of single settings below it are not forgotten.
-/

import ChipEight.Proofs.Settings.Modified

namespace ChipEight.Settings

variable {entries : Entries} {value first : Value} {path : List String} {name : String} {settings : Settings}

/-! ### Putting twice, and putting what is there -/

theorem inside_put (entries inner : Entries) (name : String) :
    inside (Entries.put entries (.text name) (.dict inner)) name = inner := by
  rw [inside, Entries.findPutSame]
  rfl

/-- Of two values at the end of one path the later one stays. -/
theorem put_put (entries : Entries) (first later : Value) (path : List String) :
    put (put entries first path) later path = put entries later path := by
  induction path generalizing entries with
  | nil => rfl
  | cons part more ih =>
      cases more with
      | nil => exact Entries.put_put entries (.text part) first later
      | cons next others =>
          have filled : next :: others ≠ [] := List.cons_ne_nil next others
          rw [put_cons _ later part filled, put_cons _ later part filled, put_cons _ first part filled, inside_put,
            Entries.put_put, ih]

/-- A value may be put where it is. -/
theorem put_here (found : find? (.dict entries) path = some value) : put entries value path = entries := by
  induction path generalizing entries with
  | nil => rfl
  | cons part more ih =>
      cases more with
      | nil => exact Entries.put_found ((find?_top entries part).symm.trans found)
      | cons next others =>
          have filled : next :: others ≠ [] := List.cons_ne_nil next others
          obtain ⟨old, there⟩ : ∃ old, find? (.dict entries) [part] = some (.dict old) := find?_mapping found
          rw [find?_top] at there
          rw [← find?_inside entries part filled] at found
          have held : inside entries part = old := by rw [inside, there]; rfl
          rw [put_cons entries value part filled, ih found, held, Entries.put_found there]

theorem note_note (modified : List Key) (name : String) :
    note (note modified (.text name)) (.text name) = note modified (.text name) :=
  have known : (note modified (.text name)).any (fun other => other.same (.text name)) = true :=
    List.any_eq_true.mpr ⟨_, note_mem modified name, Key.sameSelf _⟩
  if_pos known

/-! ### Setting and getting -/

/-- Under a name one gets what the path of its parts leads to. -/
theorem get_of_find? (found : find? (.dict settings.tree) (parts name) = some value) (missing : Value) :
    settings.get name missing = value := by
  rw [get, found, Option.getD_some]

theorem set_below (settings : Settings) (name : String) (value : Value) (rest : List String) :
    find? (.dict (settings.set name value).tree) (parts name ++ rest) = find? value rest :=
  find?_put_below settings.tree value (parts_ne_nil name) rest

theorem set_here (settings : Settings) (name : String) (value : Value) :
    find? (.dict (settings.set name value).tree) (parts name) = some value := by
  have below := set_below settings name value []
  rwa [List.append_nil] at below

theorem set_set (settings : Settings) (name : String) (first later : Value) :
    (settings.set name first).set name later = settings.set name later := by
  unfold Settings.set
  rw [put_put, note_note]

theorem set_known (settings : Settings) (name : String) (value : Value) :
    Key.text name ∈ (settings.set name value).modified := note_mem settings.modified name

theorem set_get_apart (settings : Settings) (value : Value) {other : String}
    (apart : ¬ Meet (parts name) (parts other)) (missing : Value) :
    (settings.set name value).get other missing = settings.get other missing :=
  congrArg (fun found => found.getD missing) (find?_put_apart settings.tree value apart)

/-! ### Resetting -/

section

variable (found : find? (.dict defaults) (parts name) = some first)

include found

/-- Resetting is setting, apart from the names that are touched. -/
theorem reset_tree (settings : Settings) : (settings.reset name).tree = (settings.set name first).tree := by
  rw [reset_found found]
  rfl

/-- Only the name itself is forgotten. -/
theorem mem_reset_modified (settings : Settings) (key : Key) :
    key ∈ (settings.reset name).modified ↔ key ∈ settings.modified ∧ key ≠ .text name := by
  have told : (!key.same (.text name)) = true ↔ key ≠ .text name := by
    rw [Bool.not_eq_true', ← Bool.not_eq_true, not_iff_not]
    exact ⟨fun same => Key.eq_text (eq_of_beq same), fun same => same ▸ Key.sameSelf _⟩
  rw [reset_found found, List.mem_filter, mem_note_iff, told]
  exact ⟨fun ⟨known, other⟩ => ⟨known.resolve_right other, other⟩, And.imp_left .inl⟩

/-- After a setting or a whole section is reset one gets what stood there at first, at its name and below it, and
what one got before under names that do not meet it. Just its own name is forgotten. So if no name below it was
touched on its own, nothing that is touched is left there. -/
theorem reset_forgets_key (settings : Settings) :
    let after := settings.reset name
    (∀ missing, after.get name missing = first) ∧
    (∀ rest, find? (.dict after.tree) (parts name ++ rest) = find? (.dict defaults) (parts name ++ rest)) ∧
    (∀ other, ¬ (parts name <+: parts other ∨ parts other <+: parts name) →
      ∀ missing, after.get other missing = settings.get other missing) ∧
    (∀ key, key ∈ after.modified ↔ key ∈ settings.modified ∧ key ≠ .text name) ∧
    ((∀ other, Key.text other ∈ settings.modified → parts name <+: parts other → other = name) →
      ∀ other, parts name <+: parts other → Key.text other ∉ after.modified) := by
  intro after
  have tree : after.tree = (settings.set name first).tree := reset_tree found settings
  have forgets := mem_reset_modified found settings
  refine ⟨get_of_find? ?_, fun rest => ?_, fun other apart missing => ?_, forgets, fun alone other begins known => ?_⟩
  · rw [tree]
    exact set_here settings name first
  · rw [tree, set_below, find?_append, found, Option.bind_some]
  · rw [← set_get_apart settings first apart missing, get, get, tree]
  · obtain ⟨before, different⟩ := (forgets _).mp known
    exact different (congrArg Key.text (alone other before begins))

end

/-- A level and a seed are set, and the level is reset. -/
theorem reset_forgets_key_level :
    let settings := (initial.set "logging.level" (.text "DEBUG")).set "seed" (.int 7)
    let after := settings.reset "logging.level"
    find? (.dict defaults) (parts "logging.level") = some (.text "INFO") ∧
      (∀ missing, after.get "logging.level" missing = .text "INFO") ∧
      (∀ missing, after.get "seed" missing = .int 7) ∧ Key.text "logging.level" ∉ after.modified ∧
      Key.text "seed" ∈ after.modified := by
  intro settings after
  have level : parts "logging.level" = ["logging", "level"] := parts_pair "logging" "level" (by decide) (by decide)
  have seed : parts "seed" = ["seed"] := parts_plain (by decide)
  have found : find? (.dict defaults) (parts "logging.level") = some (.text "INFO") := by
    rw [level]
    rfl
  obtain ⟨usual, -, apart, forgets, -⟩ := reset_forgets_key found settings
  refine ⟨found, usual, fun missing => (apart "seed" ?_ missing).trans ?_, fun known => ?_, ?_⟩
  · rw [level, seed]
    decide
  · exact get_of_find? (set_here _ "seed" (.int 7)) missing
  · exact ((forgets _).mp known).2 rfl
  · exact (forgets _).mpr ⟨set_known _ "seed" _, by decide⟩

/-- A level is set and its whole section is reset. The level is as at first, but its name is still among those that
are touched. -/
theorem reset_section_keeps_names :
    let settings := initial.set "logging.level" (.text "DEBUG")
    let after := settings.reset "logging"
    (find? (.dict defaults) (parts "logging")).isSome = true ∧ parts "logging" <+: parts "logging.level" ∧
      after.tree = defaults ∧ Key.text "logging.level" ∈ after.modified := by
  intro settings after
  have level : parts "logging.level" = ["logging", "level"] := parts_pair "logging" "level" (by decide) (by decide)
  have logging : parts "logging" = ["logging"] := parts_plain (by decide)
  let usual : Value := Value.record [("level", .text "INFO"), ("file", .null), ("console", .bool true)]
  have found : find? (.dict defaults) (parts "logging") = some usual := by
    rw [logging]
    rfl
  refine ⟨?_, ?_, ?_, (mem_reset_modified found settings _).mpr ⟨set_known _ "logging.level" _, by decide⟩⟩
  · rw [found]
    rfl
  · rw [logging, level]
    decide
  · have same : after.tree = (settings.set "logging" usual).tree := reset_tree found settings
    rw [same, Settings.set, logging]
    change put (put defaults _ (parts "logging.level")) _ _ = defaults
    rw [level]
    rfl

end ChipEight.Settings
