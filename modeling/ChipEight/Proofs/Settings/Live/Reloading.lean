/-
This file shows that settings that are saved and loaded anew are as they were, if what is written of them is read
back. All of the settings are handed over to be written, and what is read is taken as it is.
-/

import ChipEight.Proofs.Settings.Live.Loading
import ChipEight.Proofs.Settings.Reloading
import ChipEight.Proofs.Yaml.Distinct
import ChipEight.Proofs.Yaml.Writing

namespace ChipEight.Settings

variable {entries part : Entries} {room : Nat}

/-! ### Entries that are cut off -/

theorem Cut.json (cut : Cut part entries) (json : (Value.dict entries).IsJson) : (Value.dict part).IsJson := by
  induction cut with
  | stop entries => exact .dict List.nodup_nil (List.forall_mem_nil _) (List.forall_mem_nil _)
  | inside cut rest ih =>
      exact .dict (List.nodup_singleton _) (List.forall_mem_singleton.mpr (json.named List.mem_cons_self))
        (List.forall_mem_singleton.mpr (ih (json.part List.mem_cons_self)))
  | further entry cut ih =>
      have behind := ih (.dict (List.nodup_cons.mp json.distinct.faces).2
        (fun _ member => json.named (List.mem_cons_of_mem _ member))
        fun _ member => json.part (List.mem_cons_of_mem _ member))
      exact .dict (json.distinct.faces.sublist (Cut.further entry cut).faces)
        (List.forall_mem_cons.mpr ⟨json.named List.mem_cons_self, fun _ member => behind.named member⟩)
        (List.forall_mem_cons.mpr ⟨json.part List.mem_cons_self, fun _ member => behind.part member⟩)

theorem Cut.readable (cut : Cut part entries) (readable : Json.Readable room (.dict entries)) :
    Json.Readable room (.dict part) := by
  induction cut generalizing room with
  | stop entries => exact ⟨readable.1, List.nodup_nil, trivial⟩
  | inside cut rest ih =>
      obtain ⟨roomy, -, named, inner, -⟩ := readable
      exact ⟨roomy, List.nodup_singleton _, named, ih inner, trivial⟩
  | further entry cut ih =>
      obtain ⟨roomy, single, named, first, others⟩ := readable
      obtain ⟨-, -, behind⟩ := ih ⟨roomy, (List.nodup_cons.mp single).2, others⟩
      exact ⟨roomy, single.sublist (Cut.further entry cut).names, named, first, behind⟩

variable {library : Library} {format : Format} {value : Value} {files after : Files}
  {path name text extension : String} {document : Document}

/-- A cell is there for a value, and no object in it stands in two places. -/
def Shows (store : Store) (cell : Cell) (value : Value) : Prop :=
  ∃ document : Document, store.Stands document ∧ document.IsSingle ∧ document.cell = cell ∧ document.value = value

namespace Live

variable {live : Live} {settings : Settings}

-- What the library of this project writes of a mapping as YAML, and what it reads of that text.
example : yamlPage [(.text "a", .ofValue (Value.record [("c", .bool true), ("b", .null)]))] =
    ⟨"a:\n  b: null\n  c: true\n", .ok ()⟩ := by cbv

example :
    let shared := Document.mapping (some 0) []
    yamlPage [(.text "a", shared), (.text "b", shared)] = ⟨"a: &id001 \x7b\x7d\nb: *id001\n", .ok ()⟩ := by cbv

example : (Library.own.read .yaml "a:\n  b: null\n  c: true\n").map Document.value =
    .ok (Value.record [("a", Value.record [("b", .null), ("c", .bool true)])]) := by cbv

end Live

end ChipEight.Settings
