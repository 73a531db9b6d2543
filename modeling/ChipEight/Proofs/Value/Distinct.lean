/-
This file is about values in which no mapping has one key twice. Entries that are put into a mapping
keep that so.
-/

import ChipEight.Proofs.Value.Entries

namespace ChipEight

namespace Entries

variable {A : Type} {entries : List (Key × A)} {key : Key} {value : A}

/-- What the keys stand for. -/
def faces (entries : List (Key × A)) : List Face :=
  entries.map fun entry => entry.1.face

theorem find?_of_mem (distinct : (faces entries).Nodup) (member : (key, value) ∈ entries) :
    find? entries key = some value := by
  induction entries with
  | nil => cases member
  | cons entry rest ih =>
      obtain ⟨present, old⟩ := entry
      obtain ⟨new, others⟩ := List.nodup_cons.mp distinct
      rcases List.mem_cons.mp member with here | later
      · cases here
        exact if_pos key.sameSelf
      · have apart : ¬ present.same key = true := by
          intro same
          apply new
          change present.face ∈ faces rest
          rw [show present.face = key.face from eq_of_beq same]
          exact List.mem_map_of_mem later
        exact (if_neg apart).trans (ih others later)

theorem mem_of_put {entry : Key × A} (member : entry ∈ put entries key value) :
    entry ∈ entries ∨ entry.2 = value := by
  induction entries with
  | nil =>
      cases List.mem_singleton.mp member
      exact .inr rfl
  | cons first rest ih =>
      obtain ⟨present, old⟩ := first
      unfold put at member
      split at member
      · rcases List.mem_cons.mp member with rfl | later
        · exact .inr rfl
        · exact .inl (List.mem_cons_of_mem _ later)
      · rcases List.mem_cons.mp member with rfl | later
        · exact .inl List.mem_cons_self
        · exact (ih later).imp_left (List.mem_cons_of_mem _)

theorem mem_faces_put {face : Face} (member : face ∈ faces (put entries key value)) :
    face ∈ faces entries ∨ face = key.face := by
  induction entries with
  | nil => exact .inr (List.mem_singleton.mp member)
  | cons first rest ih =>
      obtain ⟨present, old⟩ := first
      unfold put at member
      split at member
      · exact .inl member
      · rcases List.mem_cons.mp member with rfl | later
        · exact .inl List.mem_cons_self
        · exact (ih later).imp_left (List.mem_cons_of_mem _)

theorem put_distinct (distinct : (faces entries).Nodup) : (faces (put entries key value)).Nodup := by
  induction entries with
  | nil => exact List.pairwise_singleton _ _
  | cons first rest ih =>
      obtain ⟨present, old⟩ := first
      obtain ⟨new, others⟩ := List.nodup_cons.mp distinct
      unfold put
      split
      · exact distinct
      case isFalse apart =>
        refine List.nodup_cons.mpr ⟨fun member => ?_, ih others⟩
        rcases mem_faces_put member with held | same
        · exact new held
        · exact apart (beq_of_eq same)

end Entries

/-- No mapping in a value has one key twice. -/
inductive Value.Distinct : Value → Prop where
  | single {value : Value} {key : Key} (single : value.toKey? = some key) : Distinct value
  | list {items : List Value} (parts : ∀ item ∈ items, Distinct item) : Distinct (.list items)
  | dict {entries : Entries} (keys : (Entries.faces entries).Nodup)
      (parts : ∀ entry ∈ entries, Distinct entry.2) : Distinct (.dict entries)

namespace Value.Distinct

variable {entries : Entries}

theorem faces (distinct : Distinct (.dict entries)) : (Entries.faces entries).Nodup := by
  cases distinct with
  | single single => cases single
  | dict keys parts => exact keys

theorem part (distinct : Distinct (.dict entries)) {key : Key} {value : Value}
    (member : (key, value) ∈ entries) : value.Distinct := by
  cases distinct with
  | single single => cases single
  | dict keys parts => exact parts _ member

theorem item {items : List Value} (distinct : Distinct (.list items)) : ∀ item ∈ items, item.Distinct := by
  cases distinct with
  | single single => cases single
  | list parts => exact parts

theorem put (distinct : Distinct (.dict entries)) (key : Key) {value : Value}
    (proper : value.Distinct) : Distinct (.dict (Entries.put entries key value)) := by
  refine .dict (Entries.put_distinct distinct.faces) fun entry member => ?_
  rcases Entries.mem_of_put member with held | same
  · exact distinct.part held
  · exact same ▸ proper

theorem putAll (distinct : Distinct (.dict entries)) {others : Entries}
    (proper : ∀ entry ∈ others, entry.2.Distinct) :
    Distinct (.dict (Entries.putAll entries others)) := by
  induction others generalizing entries with
  | nil => exact distinct
  | cons entry rest ih =>
      obtain ⟨first, others⟩ := List.forall_mem_cons.mp proper
      exact ih (distinct.put entry.1 first) others

theorem empty : Distinct (.dict []) :=
  .dict List.nodup_nil (List.forall_mem_nil _)

end Value.Distinct

end ChipEight
