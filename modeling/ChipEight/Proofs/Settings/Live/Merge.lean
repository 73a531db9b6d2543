/-
This file shows that merging a mapping into settings with which it shares nothing lays its entries over them.
Only where the host has no room left for what is inside one another, the entries are cut off.
-/

import ChipEight.Proofs.Settings.Live.Mirrors
import ChipEight.Value.Depth

namespace ChipEight.Settings

/-- The first ones of some entries, and of the last of them perhaps only the first parts. -/
inductive Cut : Entries → Entries → Prop where
  | stop (entries : Entries) : Cut [] entries
  | inside {key : Key} {part inner : Entries} (cut : Cut part inner) (rest : Entries) :
      Cut [(key, .dict part)] ((key, .dict inner) :: rest)
  | further (entry : Key × Value) {part rest : Entries} (cut : Cut part rest) : Cut (entry :: part) (entry :: rest)

variable {room : Nat} {path key name : Key} {settings after : Settings} {value : Value}
  {entries part rest : Entries} {result : Except Fault Unit}

theorem Cut.ahead (cut : Cut part entries) (rest : Entries) : Cut part (entries ++ rest) := by
  induction cut with
  | stop entries => exact .stop _
  | inside cut others ih => exact .inside cut _
  | further entry cut ih => exact .further entry ih

theorem overlay_single (path key : Key) (settings : Settings) (value : Value) :
    overlay path settings [(key, value)] = overlayEntry path key settings value := by
  rcases overlay_cons path key settings value [] with ⟨ends, goes⟩ | ⟨-, stops⟩
  · rw [goes, overlay]
    exact congrArg (Laid.mk _) ends.symm
  · exact stops

/-- The entries are laid, or as many of them as there is room for. -/
inductive Merges (room : Nat) (path : Key) (settings : Settings) (entries : Entries) (after : Settings)
    (result : Except Fault Unit) : Prop where
  | whole (lays : overlay path settings entries = ⟨after, result⟩)
  | cut (part : Entries) (cut : Cut part entries) (lays : (overlay path settings part).settings = after)
      (ends : result = .error (.deep .node)) (beyond : room < (Value.dict entries).depth)

theorem Merges.nil (room : Nat) (path : Key) (settings : Settings) : Merges room path settings [] settings (.ok ()) :=
  .whole rfl

/-- After an entry that is laid to its end the others follow. -/
theorem Merges.cons {middle : Settings} (first : Merges room path settings [(key, value)] middle (.ok ()))
    (others : Merges room path middle rest after result) :
    Merges room path settings ((key, value) :: rest) after result := by
  have deeper : (Value.dict rest).depth ≤ (Value.dict ((key, value) :: rest)).depth :=
    Nat.succ_le_succ (Nat.le_max_right _ _)
  cases first with
  | cut part cut lays ends beyond => cases ends
  | whole lays =>
      rw [overlay_single] at lays
      have goes (more : Entries) : overlay path settings ((key, value) :: more) = overlay path middle more := by
        rw [overlay, lays]
      cases others with
      | whole lays => exact .whole ((goes rest).trans lays)
      | cut part cut lays ends beyond =>
          refine .cut ((key, value) :: part) (.further _ cut) ?_ ends (by omega)
          rw [goes, lays]

/-- After an entry with a fault nothing follows. -/
theorem Merges.stop {fault : Fault} (first : Merges room path settings [(key, value)] after (.error fault))
    (rest : Entries) : Merges room path settings ((key, value) :: rest) after (.error fault) := by
  cases first with
  | whole lays =>
      rw [overlay_single] at lays
      refine .whole ?_
      rw [overlay, lays]
  | cut part cut lays ends beyond =>
      have deeper : (Value.dict [(key, value)]).depth ≤ (Value.dict ((key, value) :: rest)).depth :=
        Nat.succ_le_succ (Nat.max_le.mpr ⟨Nat.le_max_left _ _, Nat.zero_le _⟩)
      exact .cut part (cut.ahead rest) lays ends (by omega)

/-- A mapping over a mapping is merged into it. -/
theorem Merges.inside {inner old : Entries} {merged : Settings} (named : below path key = .ok name)
    (found : Entries.find? settings.tree key = some (.dict old))
    (within : Merges room name ⟨old, settings.modified⟩ inner merged result) :
    Merges (room + 1) path settings [(key, .dict inner)]
      ⟨Entries.put settings.tree key (.dict merged.tree), merged.modified⟩ result := by
  have lays (entries : Entries) : overlay path settings [(key, .dict entries)] =
      ⟨⟨Entries.put settings.tree key (.dict (overlay name ⟨old, settings.modified⟩ entries).settings.tree),
        (overlay name ⟨old, settings.modified⟩ entries).settings.modified⟩,
        (overlay name ⟨old, settings.modified⟩ entries).result⟩ := by
    rw [overlay_single, overlayEntry, named]
    simp only [found]
  cases within with
  | whole same => exact .whole (by rw [lays, same])
  | cut part cut same ends beyond =>
      refine .cut [(key, .dict part)] (.inside cut []) (by rw [lays, same]) ends ?_
      change room + 1 < max (Value.dict inner).depth 0 + 1
      omega

/-- Any other value takes the place of the old one. -/
theorem Merges.instead (named : below path key = .ok name)
    (apart : ∀ inner old, value = .dict inner → Entries.find? settings.tree key ≠ some (.dict old)) :
    Merges room path settings [(key, value)] ⟨Entries.put settings.tree key value, note settings.modified name⟩
      (.ok ()) := by
  refine .whole ?_
  rw [overlay_single]
  cases overlayEntry_laid path key settings value with
  | nameless fault unnamed lays => exact nomatch named.symm.trans unnamed
  | inside other inner old merged titled mapping found => exact absurd found (apart inner old mapping)
  | instead other titled free lays =>
      cases named.symm.trans titled
      exact lays

theorem Merges.nameless {fault : Fault} (unnamed : below path key = .error fault) :
    Merges room path settings [(key, value)] settings (.error fault) := by
  refine .whole ?_
  rw [overlay_single, overlayEntry, unnamed]

namespace Live

open Document (entryMarks entryValues)

variable {live : Live} {document : Document} {source target : Nat} {old changed others : List (Key × Document)}
  {merged : Merged} {inner : Key → Nat → Nat → Live → Merged}

/-- Entries are merged into a mapping in a store, as they would be laid over what it says. -/
structure Follows (room : Nat) (path : Key) (live : Live) (source : List (Key × Document)) (target : Nat)
    (old changed : List (Key × Document)) (merged : Merged) : Prop where
  turned : live.store.Turned merged.live.store (entryMarks source) target old changed
  root : merged.live.root = live.root
  merges : Merges room path ⟨entryValues old, live.modified⟩ (entryValues source)
    ⟨entryValues changed, merged.live.modified⟩ merged.result

/-- What merges mappings that have nothing in common, with room for so many inside one another. -/
def IsMerging (room : Nat) (inner : Key → Nat → Nat → Live → Merged) : Prop :=
  ∀ (path : Key) (source target : Nat) (entries old : List (Key × Document)) (live : Live),
    live.store.Stands (.mapping (some source) entries) → (Document.mapping (some source) entries).IsSingle →
    live.store.Stands (.mapping (some target) old) → (Document.mapping (some target) old).IsSingle →
    (∀ mark ∈ (Document.mapping (some source) entries).marks, mark ∉ (Document.mapping (some target) old).marks) →
    ∃ changed, Follows room path live entries target old changed (inner path source target live)

theorem Follows.nil (stands : live.store.Stands (.mapping (some target) old))
    (single : (Document.mapping (some target) old).IsSingle) :
    Follows room path live [] target old old ⟨live, .ok ()⟩ :=
  ⟨.refl stands single, rfl, .nil room path _⟩

section

variable (stands : live.store.Stands (.mapping (some target) old))
  (single : (Document.mapping (some target) old).IsSingle) (new : live.store.Stands document)
  (alone : document.IsSingle) (apart : ∀ mark ∈ document.marks, mark ∉ (Document.mapping (some target) old).marks)

include stands single new alone apart

theorem put_follows (room : Nat) (named : below path key = .ok name)
    (other : ∀ inner before, document.value = .dict inner →
      Entries.find? (entryValues old) key ≠ some (.dict before)) :
    Follows room path live [(key, document)] target old (Entries.put old key document)
      ⟨{ live with store := live.store.put target key document.cell, modified := note live.modified name },
        .ok ()⟩ := by
  refine ⟨?_, rfl, ?_⟩
  · rw [entryMarks, entryMarks, List.append_nil]
    exact .put stands single new alone (fun mark inside => not_or.mp (mt List.mem_cons.mpr (apart mark inside))) key
  · rw [entryValues_put]
    exact .instead named other

/-- Merging one entry lays it. -/
theorem mergeEntry_follows (merging : IsMerging room inner) (path key : Key) :
    ∃ changed, Follows (room + 1) path live [(key, document)] target old changed
      (mergeEntry inner path key document.cell target live) := by
  unfold mergeEntry
  cases named : below path key with
  | error fault =>
      exact ⟨old, (Store.Turned.refl stands single).mono nofun, rfl, .nameless named⟩
  | ok name =>
      dsimp only
      have puts := put_follows stands single new alone apart (room + 1) named
      rcases new.mapping_cases with ⟨source, nested, rfl, mapping⟩ | ⟨mapping, shapeless⟩
      case inr =>
        rw [mapping]
        exact ⟨_, puts fun inner before same => by rw [same] at shapeless; cases shapeless⟩
      rw [mapping]
      rcases below_cases stands key with ⟨deeper, before, found, below⟩ | ⟨below, lacks⟩
      case inr =>
        rw [below]
        refine ⟨_, puts fun inner before _ held => ?_⟩
        obtain ⟨part, there, same⟩ := Option.map_eq_some_iff.mp ((entryValues_find? old key).symm.trans held)
        cases part with
        | mapping mark entries => exact lacks mark entries there
        | scalar key => cases key <;> cases same
        | list => cases same
      rw [below]
      obtain ⟨present, member⟩ := Entries.find?_mem found
      have inside {mark : Nat} (known : mark ∈ (Document.mapping (some deeper) before).marks) :
          mark ∈ (Document.mapping (some target) old).marks :=
        List.mem_cons_of_mem _ ((Document.part_marks member).subset known)
      obtain ⟨changed, turned, root, merges⟩ := merging name source deeper nested before live new alone
        (stands.part member) (single.part member) fun mark known there => apart mark known (inside there)
      have given (mark : Nat) (known : mark ∈ entryMarks nested) : mark ∈ (Document.mapping (some source) nested).marks :=
        List.mem_cons_of_mem _ known
      refine ⟨Entries.put old key (.mapping (some deeper) changed), ?_, root, ?_⟩
      · rw [entryMarks, entryMarks, List.append_nil]
        refine (turned.within stands single found fun mark known => ?_).mono given
        exact not_or.mp (mt List.mem_cons.mpr (apart mark (given mark known)))
      · rw [entryValues_put]
        have held : Entries.find? (Settings.mk (entryValues old) live.modified).tree key =
            some (.dict (entryValues before)) := by
          rw [entryValues_find?, found]
          rfl
        exact Merges.inside named held merges

end

/-- Entries that are still to be merged have nothing in common with one another, with the mapping that they go
into, or with the site where they are. -/
structure Pending (store : Store) (source target : Nat) (old rest : List (Key × Document)) : Prop where
  stands : store.Stands (.mapping (some target) old)
  single : (Document.mapping (some target) old).IsSingle
  new : ∀ entry ∈ rest, store.Stands entry.2
  alone : (entryMarks rest).Nodup
  apart : ∀ mark ∈ entryMarks rest, mark ≠ target ∧ mark ∉ entryMarks old
  outside : source ≠ target ∧ source ∉ entryMarks old ∧ source ∉ entryMarks rest

theorem Pending.next {store after : Store} {rest : List (Key × Document)}
    (pending : Pending store source target old ((key, document) :: rest))
    (turned : store.Turned after document.marks target old changed) (bound : source < store.newSite) :
    Pending after source target changed rest := by
  obtain ⟨here, others, apart⟩ := List.nodup_append.mp pending.alone
  obtain ⟨beside, unknown, outside⟩ := pending.outside
  rw [Document.mem_entryMarks_cons, not_or] at outside
  have known {mark : Nat} (member : mark ∈ entryMarks changed) :
      mark ∈ entryMarks old ∨ mark ∈ document.marks ∨ store.newSite ≤ mark := turned.marks mark member
  refine ⟨turned.stands, turned.single, fun entry member => ?_, others, fun mark member => ⟨?_, fun within => ?_⟩,
    beside, fun within => ?_, outside.2⟩
  · obtain ⟨name, part⟩ := entry
    refine (pending.new _ (List.mem_cons_of_mem _ member)).kept fun mark inside object found => ?_
    have listed : mark ∈ entryMarks rest := (Document.part_marks member).subset inside
    obtain ⟨different, unheld⟩ := pending.apart mark (List.mem_append_right _ listed)
    exact turned.kept mark object found different unheld fun both => apart mark both mark listed rfl
  · exact (pending.apart mark (List.mem_append_right _ member)).1
  · rcases known within with held | given | new
    · exact (pending.apart mark (List.mem_append_right _ member)).2 held
    · exact apart mark given mark member rfl
    · rw [Document.entryMarks_eq] at member
      obtain ⟨entry, listed, inside⟩ := List.mem_flatMap.mp member
      have below := (pending.new entry (List.mem_cons_of_mem _ listed)).lt mark inside
      omega
  · rcases known within with held | given | new
    · exact unknown held
    · exact outside.1 given
    · omega

/-- Merging entries one after another lays them. -/
theorem mergeLast_follows (merging : IsMerging room inner) (path : Key) (before rest : List (Key × Document))
    (here : live.store.object? source = some (.mapping (Entries.mapValues Document.cell (before ++ rest))))
    (pending : Pending live.store source target old rest) :
    ∃ changed, Follows (room + 1) path live rest target old changed
      (mergeLast inner path source target (before ++ rest).length live rest.length) := by
  induction rest generalizing before live old with
  | nil =>
      have size : (live.store.entries source).length = (before ++ ([] : List (Key × Document))).length := by
        rw [Store.entries_of_object? here, Entries.mapValues, List.length_map]
      rw [List.length_nil, mergeLast, if_pos size]
      exact ⟨old, .nil pending.stands pending.single⟩
  | cons entry rest ih =>
      obtain ⟨key, document⟩ := entry
      have size : (live.store.entries source).length = (before ++ (key, document) :: rest).length := by
        rw [Store.entries_of_object? here, Entries.mapValues, List.length_map]
      have place : (live.store.entries source)[(before ++ (key, document) :: rest).length - (rest.length + 1)]? =
          some (key, document.cell) := by
        have index : (before ++ (key, document) :: rest).length - (rest.length + 1) = before.length := by
          rw [List.length_append, List.length_cons]
          omega
        rw [Store.entries_of_object? here, index, Entries.mapValues, List.getElem?_map,
          List.getElem?_append_right (Nat.le_refl _), Nat.sub_self]
        rfl
      rw [List.length_cons, mergeLast, if_pos size, place]
      dsimp only
      obtain ⟨alone, -, -⟩ := List.nodup_append.mp pending.alone
      have apart (mark : Nat) (known : mark ∈ document.marks) :
          mark ∉ (Document.mapping (some target) old).marks := by
        obtain ⟨different, unheld⟩ := pending.apart mark (List.mem_append_left _ known)
        rw [Document.mem_marks_mapping, not_or]
        exact ⟨different, unheld⟩
      obtain ⟨changed, turned, root, merges⟩ := mergeEntry_follows pending.stands pending.single
        (pending.new _ List.mem_cons_self) alone apart merging path key
      generalize mergeEntry inner path key document.cell target live = merged at turned root merges
      rw [entryMarks, entryMarks, List.append_nil] at turned
      cases ends : merged.result with
      | error fault =>
          rw [ends] at merges
          refine ⟨changed, turned.mono fun _ => List.mem_append_left _, root, ?_⟩
          dsimp only
          rw [ends]
          exact merges.stop _
      | ok done =>
          rw [ends] at merges
          obtain ⟨beside, unknown, outside⟩ := pending.outside
          rw [Document.mem_entryMarks_cons, not_or] at outside
          have still := turned.kept source _ here beside unknown outside.1
          have size : before ++ (key, document) :: rest = before ++ [(key, document)] ++ rest := by
            rw [List.append_assoc]
            rfl
          rw [size] at still ⊢
          obtain ⟨last, further, same, more⟩ := ih (before ++ [(key, document)]) still
            (pending.next turned (Store.site_lt here))
          exact ⟨last, turned.trans further, same.trans root, merges.cons more⟩

theorem merge_merging (room : Nat) : IsMerging room (merge room) := by
  intro path source target entries old live new alone stands single apart
  cases room with
  | zero =>
      refine ⟨old, (Store.Turned.refl stands single).mono nofun, rfl, ?_⟩
      exact .cut [] (.stop _) rfl rfl (Nat.succ_pos _)
  | succ room =>
      have size : (live.store.entries source).length = entries.length := by
        rw [Store.entries_of_object? new.here, Entries.mapValues, List.length_map]
      rw [merge, size]
      have outside := apart source (Document.mem_marks_mapping.mpr (.inl rfl))
      rw [Document.mem_marks_mapping, not_or] at outside
      refine mergeLast_follows (merge_merging room) path [] entries new.here
        ⟨stands, single, fun ⟨_, _⟩ member => new.part member, (List.nodup_cons.mp alone).2,
          fun mark member => ?_, outside.1, outside.2, Document.IsSingle.apart alone⟩
      have inside := apart mark (Document.mem_marks_mapping.mpr (.inr member))
      rwa [Document.mem_marks_mapping, not_or] at inside

end Live

end ChipEight.Settings
