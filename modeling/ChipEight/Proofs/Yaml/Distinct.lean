/-
This file shows that a document that is read from a YAML text has each key of a mapping once, also where
the text names a key again or merges other mappings in.
-/

import ChipEight.Proofs.Value.Document
import ChipEight.Yaml.Reader

namespace ChipEight.Yaml

theorem map_ok {A B C : Type} {result : Except C A} {change : A → B} {value : B} :
    result.map change = .ok value ↔ ∃ inner, result = .ok inner ∧ change inner = value := by
  cases result with
  | error problem => exact ⟨nofun, nofun⟩
  | ok found =>
      constructor
      · rintro ⟨⟩
        exact ⟨found, rfl, rfl⟩
      · rintro ⟨_, ⟨⟩, rfl⟩
        rfl

theorem mapError_ok {A B C : Type} {result : Except A B} {change : A → C} {value : B} :
    result.mapError change = .ok value ↔ result = .ok value := by
  cases result with
  | error problem => exact ⟨nofun, nofun⟩
  | ok found =>
      constructor
      · rintro ⟨⟩
        rfl
      · rintro ⟨⟩
        rfl

theorem scalar_distinct (key : Key) : (Document.scalar key).value.Distinct := by
  cases key <;> exact .single rfl

theorem list_distinct {mark : Option Nat} {items : List Document} (parts : ∀ item ∈ items, item.value.Distinct) :
    (Document.list mark items).value.Distinct := by
  rw [Document.value, Document.itemValues_eq]
  exact .list (List.forall_mem_map.mpr parts)

theorem mapping_distinct {mark : Option Nat} {entries : Parts} (keys : (Entries.faces entries).Nodup)
    (parts : ∀ entry ∈ entries, entry.2.value.Distinct) : (Document.mapping mark entries).value.Distinct := by
  rw [Document.value, Document.entryValues_eq]
  refine .dict ((Entries.faces_mapValues _ entries).symm ▸ keys) fun entry member => ?_
  obtain ⟨document, within, same⟩ := Entries.mem_mapValues member
  exact same ▸ parts _ within

/-- The parts of a mapping that names each key once do so too. -/
theorem mapping_part {mark : Option Nat} {entries : Parts} (proper : (Document.mapping mark entries).value.Distinct) :
    ∀ entry ∈ entries, entry.2.value.Distinct := by
  intro entry member
  rw [Document.value, Document.entryValues_eq] at proper
  exact proper.part (Entries.mapValues_mem member)

theorem list_item {mark : Option Nat} {items : List Document} (proper : (Document.list mark items).value.Distinct) :
    ∀ item ∈ items, item.value.Distinct := by
  intro item member
  rw [Document.value, Document.itemValues_eq] at proper
  exact proper.item _ (List.mem_map_of_mem member)

/-! ### Nodes -/

theorem together_ok {A B : Type} {first : Except Found A} {second : Except Found B} {one : A} {two : B} :
    together first second = .ok (one, two) ↔ first = .ok one ∧ second = .ok two := by
  cases first <;> cases second <;> simp [together]

/-- Mappings that are merged in bring their values. -/
theorem mergedEntries_distinct {document : Document} {entries : Parts} (proper : document.value.Distinct)
    (merges : mergedEntries document = .ok entries) : ∀ entry ∈ entries, entry.2.value.Distinct := by
  unfold mergedEntries at merges
  split at merges
  case h_1 held =>
      cases merges
      exact mapping_part proper
  case h_2 items =>
      have parts := list_item proper
      clear proper
      induction items generalizing entries with
      | nil =>
          cases merges
          exact List.forall_mem_nil _
      | cons item rest ih =>
          obtain ⟨first, others⟩ := List.forall_mem_cons.mp parts
          rw [List.foldr_cons] at merges
          split at merges
          case h_1 mark inner =>
              dsimp only [bind, Except.bind] at merges
              split at merges
              case h_1 => cases merges
              case h_2 known found =>
                  cases merges
                  exact List.forall_mem_append.mpr ⟨ih found others, mapping_part first⟩
          case h_2 => cases merges
  case h_3 => cases merges

mutual
theorem nodeDocument_distinct (node : Composed) {depth : Nat} {document : Document}
    (reads : nodeDocument depth node = .ok document) : document.value.Distinct := by
  cases node with
  | scalar plain text =>
      unfold nodeDocument at reads
      obtain ⟨key, -, rfl⟩ := map_ok.mp (mapError_ok.mp reads)
      exact scalar_distinct key
  | list mark items =>
      unfold nodeDocument at reads
      obtain ⟨documents, known, rfl⟩ := map_ok.mp reads
      exact list_distinct (itemDocuments_distinct items known)
  | mapping mark entries =>
      unfold nodeDocument at reads
      obtain ⟨⟨merged, own⟩, known, rfl⟩ := map_ok.mp reads
      obtain ⟨first, second⟩ := entryDocuments_distinct entries known
      refine mapping_distinct (Entries.putAll_distinct (Entries.putAll_distinct List.nodup_nil)) fun entry member => ?_
      rcases Entries.mem_of_putAll member with held | ⟨other, within, same⟩
      · rcases Entries.mem_of_putAll held with none | ⟨other, within, same⟩
        · cases none
        · exact same ▸ first other within
      · exact same ▸ second other within

theorem itemDocuments_distinct (items : List Composed) {depth : Nat} {documents : List Document}
    (reads : itemDocuments depth items = .ok documents) : ∀ document ∈ documents, document.value.Distinct := by
  cases items with
  | nil =>
      cases reads
      exact List.forall_mem_nil _
  | cons item rest =>
      unfold itemDocuments at reads
      obtain ⟨⟨document, others⟩, known, rfl⟩ := map_ok.mp reads
      obtain ⟨first, more⟩ := together_ok.mp known
      exact List.forall_mem_cons.mpr ⟨nodeDocument_distinct item first, itemDocuments_distinct rest more⟩

theorem entryDocuments_distinct (entries : List (Composed × Composed)) {depth : Nat} {merged own : Parts}
    (reads : entryDocuments depth entries = .ok (merged, own)) :
    (∀ entry ∈ merged, entry.2.value.Distinct) ∧ ∀ entry ∈ own, entry.2.value.Distinct := by
  cases entries with
  | nil =>
      cases reads
      exact ⟨List.forall_mem_nil _, List.forall_mem_nil _⟩
  | cons entry rest =>
      obtain ⟨name, node⟩ := entry
      unfold entryDocuments at reads
      dsimp only at reads
      split at reads
      case h_1 problem named =>
          obtain ⟨⟨none, others⟩, known, -⟩ := map_ok.mp reads
          cases (together_ok.mp known).1
      case h_2 key named =>
          obtain ⟨⟨document, merged, own⟩, known, same⟩ := map_ok.mp reads
          obtain ⟨first, others⟩ := together_ok.mp known
          cases same
          obtain ⟨mixed, proper⟩ := entryDocuments_distinct rest others
          exact ⟨mixed, List.forall_mem_cons.mpr ⟨nodeDocument_distinct node first, proper⟩⟩
      case h_3 named =>
          obtain ⟨⟨first, merged, own⟩, known, same⟩ := map_ok.mp reads
          obtain ⟨mixes, others⟩ := together_ok.mp known
          cases same
          obtain ⟨mixed, proper⟩ := entryDocuments_distinct rest others
          refine ⟨List.forall_mem_append.mpr ⟨?_, mixed⟩, proper⟩
          dsimp only [bind, Except.bind] at mixes
          split at mixes
          case h_1 => cases mixes
          case h_2 document reads =>
              exact mergedEntries_distinct (nodeDocument_distinct node reads) (mapError_ok.mp mixes)
end

/-- A text with a document gives one in which no mapping has one key twice. -/
theorem readDocument_distinct {text : String} {document : Document} (reads : readDocument text = .ok document) :
    document.value.Distinct := by
  unfold readDocument at reads
  cases known : tokens text with
  | error problem =>
      rw [known] at reads
      cases reads
  | ok tokens =>
      rw [known] at reads
      dsimp only [bind, Except.bind] at reads
      split at reads
      · cases reads
      · split at reads
        · cases reads
        · exact nodeDocument_distinct _ (mapError_ok.mp reads)

end ChipEight.Yaml
