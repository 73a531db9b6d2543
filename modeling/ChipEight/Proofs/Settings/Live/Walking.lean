/-
This file says what stands along every path after a document is loaded that shares nothing with the settings,
where no object of them stands in two places. If one does, it is found changed along paths that the document
does not have.
-/

import ChipEight.Proofs.Settings.Live.Loading
import ChipEight.Proofs.Settings.Walking

namespace ChipEight.Settings

variable {entries part tree : Entries} {settings : Settings}

/-- What holds all entries holds those that are left when they are cut off. -/
theorem Holds.cut (holds : Holds (.dict tree) (.dict entries)) (cut : Cut part entries) :
    Holds (.dict tree) (.dict part) := by
  induction cut generalizing tree with
  | stop entries => exact .dict (fun _ _ => nofun) fun _ _ _ => nofun
  | inside cut rest ih =>
      cases holds with
      | other shapeless => cases shapeless
      | dict keys parts =>
          refine .dict (fun key value member => ?_) fun key value held member found => ?_
          · cases List.mem_singleton.mp member
            exact keys _ _ List.mem_cons_self
          · cases List.mem_singleton.mp member
            have within := parts _ _ held List.mem_cons_self found
            cases within with
            | dict others more => exact ih (.dict others more)
            | other shapeless => cases shapeless
  | @further entry piece rest cut ih =>
      cases holds with
      | other shapeless => cases shapeless
      | dict keys parts =>
          have behind := ih (.dict (fun key value member => keys key value (List.mem_cons_of_mem _ member))
            fun key value held member => parts key value held (List.mem_cons_of_mem _ member))
          cases behind with
          | other shapeless => cases shapeless
          | dict others more =>
              refine .dict (fun key value member => ?_) fun key value held member => ?_
              · rcases List.mem_cons.mp member with rfl | later
                · exact keys _ _ List.mem_cons_self
                · exact others key value later
              · rcases List.mem_cons.mp member with rfl | later
                · exact parts _ _ held List.mem_cons_self
                · exact more key value held later

namespace Live

variable {live : Live} {document : Document}

/-- Loading what settings hold changes none of them. -/
theorem loadDocument_held (mirrors : live.Mirrors settings) (single : document.IsSingle)
    (told : document.value = .dict entries) (holds : Settings.Holds (.dict settings.tree) (.dict entries)) (room : Nat) :
    (live.loadDocument room document).live.shown.tree = settings.tree := by
  obtain ⟨after, still, same⟩ := (mirrors.loadDocument single room).keeps (fun after => after.tree = settings.tree) rfl
    fun others part mapping _ cut => by
      cases told.symm.trans mapping
      exact overlay_held top settings (holds.cut cut)
  rw [still.shown, same]

/-- Settings and a document are given in which no object stands in two places, and the keys of the document are
texts, none of them empty. If the host has room for it, it is taken exactly if it has no problems. When it is taken,
along each path stands what the walk down the document and the settings ends with, the names of just those paths are
touched at whose last key the document puts a value in place, and loading once more what the document says changes no
value. No object of the settings stands in two places after that either. -/
theorem loading_merges (plain : live.IsSingle) (single : document.IsSingle) (told : document.value = .dict entries)
    (keys : Value.Named (· ≠ "") (.dict entries)) (room : Nat) :
    let loaded := live.loadDocument room document
    (document.value.depth ≤ room → (loaded.result = .ok true ↔ validate (.dict entries) = .ok [])) ∧
    (loaded.result = .ok true →
      (∀ path, Stands entries live.shown.tree loaded.live.shown.tree path) ∧
      (∀ key, key ∈ loaded.live.modified ↔ key ∈ live.modified ∨
        ∃ path, PlacedAt entries live.shown.tree path ∧ key = .text (dotted path)) ∧
      (∀ again : Document, again.IsSingle → again.value = .dict entries →
        (loaded.live.loadDocument room again).live.shown.tree = loaded.live.shown.tree) ∧
      loaded.live.IsSingle) := by
  intro loaded
  obtain ⟨takes, walks⟩ := loadDocument_walks live.shown keys
  have loads : LoadsAs room live.shown document.value loaded := plain.mirrors.loadDocument single room
  rw [told] at loads ⊢
  cases loads with
  | cut others part mapping valid cut mirrors ends beyond =>
      exact ⟨fun roomy => absurd roomy (by omega), fun taken => nomatch ends.symm.trans taken⟩
  | whole mirrors ends =>
      refine ⟨fun _ => ends ▸ takes, fun taken => ?_⟩
      obtain ⟨stands, touched, holds⟩ := walks (ends.symm.trans taken)
      rw [mirrors.shown]
      refine ⟨stands, fun key => ?_, fun again alone same => ?_, mirrors.single⟩
      · rw [mirrors.modified]
        exact touched key
      · exact loadDocument_held mirrors alone same holds room

/-- A level is merged into its section, and a colour gives way to a mapping of its shades. -/
theorem loading_merges_shades :
    let first := Value.record [("colours", Value.record [("red", .int 1)])]
    let live := (initial.loadDocument 990 (.ofValue first)).live
    let logging := Value.record [("level", .text "DEBUG")]
    let colours := Value.record [("red", Value.record [("dark", .int 2)])]
    let entries : Entries := [(.text "logging", logging), (.text "colours", colours)]
    let loaded := live.loadDocument 990 (.ofValue (.dict entries))
    live.IsSingle ∧ loaded.result = .ok true ∧
      (Value.dict loaded.live.shown.tree).reach [.text "colours", .text "red", .text "dark"] = some (.int 2) ∧
      (Value.dict loaded.live.shown.tree).reach [.text "logging", .text "console"] = some (.bool true) ∧
      Key.text "colours.red" ∈ loaded.live.modified := by
  intro first live logging colours entries loaded
  have key (name : String) (filled : name ≠ "") : ∃ other, Key.text name = .text other ∧ other ≠ "" :=
    ⟨name, rfl, filled⟩
  have level : logging.Named (· ≠ "") :=
    .dict (by decide) (List.forall_mem_singleton.mpr (key "level" (by decide)))
      (List.forall_mem_singleton.mpr (.other rfl))
  have dark : (Value.record [("dark", .int 2)]).Named (· ≠ "") :=
    .dict (by decide) (List.forall_mem_singleton.mpr (key "dark" (by decide)))
      (List.forall_mem_singleton.mpr (.other rfl))
  have shades : colours.Named (· ≠ "") :=
    .dict (by decide) (List.forall_mem_singleton.mpr (key "red" (by decide))) (List.forall_mem_singleton.mpr dark)
  have named : (Value.dict entries).Named (· ≠ "") := by
    refine .dict (by decide) (List.forall_mem_cons.mpr ⟨key "logging" (by decide), ?_⟩)
      (List.forall_mem_cons.mpr ⟨level, List.forall_mem_singleton.mpr shades⟩)
    exact List.forall_mem_singleton.mpr (key "colours" (by decide))
  let settings := (Settings.initial.loadDocument first).settings
  have mirrors : live.Mirrors settings := by
    have roomy : (Document.ofValue first).value.depth ≤ 990 := by
      rw [Document.value_ofValue]
      decide
    have loads := (fresh_mirrors .empty).loadDocument_roomy (Document.ofValue_single first) roomy
    rw [Document.value_ofValue] at loads
    exact loads.1
  have told : (Document.ofValue (.dict entries)).value = .dict entries := Document.value_ofValue _
  obtain ⟨takes, laid⟩ := loading_merges mirrors.single (Document.ofValue_single _) told named 990
  have taken : loaded.result = .ok true := (takes (by rw [told]; decide)).mpr rfl
  obtain ⟨stands, touched, -⟩ := laid taken
  rw [mirrors.shown] at stands touched
  have red : dotted ["colours", "red"] = "colours.red" := by decide
  refine ⟨mirrors.single, taken, ?_, ?_, (touched _).mpr (.inr ⟨["colours", "red"], rfl, by rw [red]⟩)⟩
  · cases stands [.text "colours", .text "red", .text "dark"] with
    | kept ends => cases ends
    | placed left ends stands => exact stands
    | merged inner ends => cases ends
  · cases stands [.text "logging", .text "console"] with
    | kept ends stands => exact stands
    | placed left ends => cases ends
    | merged inner ends => cases ends

/-- One mapping stands under two names. A document that has only the first of them changes what is found below the
second. -/
theorem shared_mapping_merged :
    let shared := Document.mapping (some 0) [(.text "p", .scalar (.int 1))]
    let first := initial.loadDocument 990 (.mapping none [(.text "a", shared), (.text "b", shared)])
    let entries : Entries := [(.text "a", Value.record [("p", .int 5)])]
    let second := first.live.loadDocument 990 (.ofValue (.dict entries))
    let path := [Key.text "b", Key.text "p"]
    first.result = .ok true ∧ second.result = .ok true ∧ ending entries first.live.shown.tree path = .lacking ∧
      (Value.dict first.live.shown.tree).reach path = some (.int 1) ∧
      (Value.dict second.live.shown.tree).reach path = some (.int 5) := by
  refine ⟨?_, ?_, ?_, ?_, ?_⟩ <;> rfl

end Live

end ChipEight.Settings
