/-
This file shows that settings that are laid over the first ones come out as they were. They are valid and have
all that is there at first; so they are taken, and nothing of the first settings shows through them.
-/

import ChipEight.Proofs.Json.Pages
import ChipEight.Proofs.Settings.Merging

namespace ChipEight.Settings

variable {settings : Settings} {entries tree : Entries} {document : Value}

/-! ### Documents that are alike -/

theorem isMet_alike {value other : Value} (alike : value.Alike other) (wanted : Wanted) :
    wanted.isMet value = wanted.isMet other := by
  cases alike with
  | refl => rfl
  | list => cases wanted <;> rfl
  | dict => exact isMet_dict wanted _ _

theorem Rule.Holds.alike {rule : Rule} (holds : rule.Holds tree)
    (alike : Value.Alike (.dict entries) (.dict tree)) : rule.Holds entries := by
  intro value found
  obtain ⟨other, there, like⟩ := alike.found found
  rw [isMet_alike like]
  exact holds other there

/-- What is like a valid mapping is valid. -/
theorem Valid.alike (valid : Valid tree) (alike : Value.Alike (.dict entries) (.dict tree)) :
    Valid entries := by
  refine ⟨fun rule asked => (valid.top rule asked).alike alike, fun name rules listed inner found rule asked => ?_⟩
  obtain ⟨other, there, like⟩ := alike.found found
  obtain ⟨target, rfl⟩ := like.dict_left
  exact (valid.sections name rules listed target there rule asked).alike like

/-- What is like a value of a JSON text is one, if it has no key twice. -/
theorem isJson_alike {value other : Value} (alike : value.Alike other) (distinct : value.Distinct)
    (json : other.IsJson) : value.IsJson := by
  induction alike with
  | refl => exact json
  | list length parts ih =>
      refine .list fun item member => ?_
      obtain ⟨place, inside, here⟩ := List.getElem_of_mem member
      have there := List.getElem?_eq_getElem (length ▸ inside)
      refine ih place item _ (here ▸ List.getElem?_eq_getElem inside) there (distinct.item item member) ?_
      cases json with
      | list proper => exact proper _ (List.getElem_mem _)
  | dict length names parts ih =>
      have alike := Value.Alike.dict length names parts
      refine .dict distinct.faces (fun entry member => ?_) fun entry member => ?_
      · obtain ⟨key, value⟩ := entry
        obtain ⟨other, there, -⟩ := alike.found (Entries.find?_of_mem distinct.faces member)
        obtain ⟨present, within, same⟩ := Entries.find?_entry there
        obtain ⟨name, rfl⟩ := json.named within
        exact ⟨name, Key.eq_text same⟩
      · obtain ⟨key, value⟩ := entry
        have here := Entries.find?_of_mem distinct.faces member
        obtain ⟨other, there, -⟩ := alike.found here
        obtain ⟨present, within, -⟩ := Entries.find?_entry there
        exact ih key value other here there (distinct.part member) (json.part within)

/-! ### Restoring -/

/-- Settings that are laid over the first ones come out as they were. -/
theorem restores (sturdy : Sturdy tree) (json : (Value.dict tree).IsJson) (distinct : document.Distinct)
    (alike : document.Alike (.dict tree)) :
    (initial.loadDocument document).result = .ok true ∧
      Value.Alike (.dict (initial.loadDocument document).settings.tree) (.dict tree) := by
  obtain ⟨entries, rfl⟩ := alike.dict_right
  have proper := isJson_alike alike distinct json
  have checked : validate (.dict entries) = .ok [] :=
    (validate_nil_iff _).mpr ⟨entries, rfl, sturdy.valid.alike alike⟩
  have ends : (overlay top initial entries).result = .ok () := overlay_ends rfl proper
  have loads : initial.loadDocument (.dict entries) =
      ⟨(overlay top initial entries).settings, .ok true, []⟩ := by
    simp only [loadDocument, checked, Value.entries?, Option.getD_some, ends]
    rfl
  rw [loads]
  refine ⟨rfl, overlay_restores alike initial_json.distinct.faces distinct.faces json.distinct.faces ends
    (fun key held => ?_) fun key before inner target name modified first found wants laid => ?_⟩
  · rw [alike.names key]
    exact Entries.has_of_names sturdy.keys held
  · obtain ⟨⟨title, rules, listed, same, keys⟩, single, flat⟩ := defaults_section first
    obtain ⟨held, present, -, complete⟩ := sturdy.sections title rules listed
    rw [← Entries.find?_congr same, wants] at present
    cases present
    have like := alike.parts found wants
    obtain ⟨_, within, -⟩ := Entries.find?_entry found
    obtain ⟨_, kept, -⟩ := Entries.find?_entry wants
    refine overlay_restores like single (distinct.part within).faces (json.part kept).distinct.faces laid
      (fun other held => ?_) fun other before inner target name modified first => absurd first (flat other before)
    rw [like.names other]
    exact Entries.has_of_names (keys ▸ complete) held

end ChipEight.Settings
