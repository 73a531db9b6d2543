/-
This file treats names of settings as lenses. What is set under a name is found there; what is found under other
names stays as it is if no object of the settings stands in two places, and else it may change.
-/

import ChipEight.Proofs.Settings.Dotted
import ChipEight.Proofs.Settings.Live.Loading

namespace ChipEight.Settings.Live

open Document (entryMarks)

variable {store after : Store} {site : Nat} {cell : Cell} {document part : Document} {path other : List String}
  {entries : List (Key × Document)} {live : Live} {name : String}

/-- What a path led to from a document before is led to now, and is as it was. -/
structure Stays (after : Store) (document : Document) (path : List Key) : Prop where
  leads : after.walk document.cell path = (document.reach path).map Document.cell
  stands : ∀ part, document.reach path = some part → after.Stands part

theorem Stays.of_stands (stands : after.Stands document) (path : List Key) : Stays after document path :=
  ⟨stands.walk path, fun _ => stands.reach⟩

/-- A path goes on from what stands under its first key. -/
theorem Stays.cons {key : Key} {rest : List Key} {cells : List (Key × Cell)}
    (here : after.object? site = some (.mapping cells))
    (same : Entries.find? cells key = (Entries.find? entries key).map Document.cell)
    (behind : ∀ part, Entries.find? entries key = some part → Stays after part rest) :
    Stays after (.mapping (some site) entries) (key :: rest) := by
  have step : ((after.mapping? (.object site)).bind fun site => after.find? site key) =
      (Entries.find? entries key).map Document.cell := by
    rw [Store.mapping?_of_object? here, Option.bind_some, Store.find?, Store.entries_of_object? here, same]
  constructor
  · change after.walk (.object site) (key :: rest) = _
    rw [Store.walk_cons, step, Document.reach]
    change _ = Option.map _ ((Entries.find? entries key).bind _)
    cases found : Entries.find? entries key with
    | none => rfl
    | some part => exact (behind part found).leads
  · intro part found
    obtain ⟨next, here, there⟩ := Option.bind_eq_some_iff.mp found
    exact (behind next here).stands part there

theorem Stays.congr {changed : List (Key × Document)} {path : List Key}
    (stays : Stays after (.mapping (some site) changed) path)
    (same : (Document.mapping (some site) changed).reach path = (Document.mapping (some site) entries).reach path) :
    Stays after (.mapping (some site) entries) path :=
  ⟨stays.leads.trans (congrArg _ same), fun part found => stays.stands part (same.trans found)⟩

/-- What putting along a path does and leaves. -/
structure Lens (store after : Store) (site : Nat) (entries : List (Key × Document)) (cell : Cell) (path : List String) :
    Prop where
  here : after.walk (.object site) (path.map .text) = some cell
  apart : ∀ other, ¬ Meet path other → Stays after (.mapping (some site) entries) (other.map .text)
  kept : ∀ mark object, store.object? mark = some object → mark ≠ site → mark ∉ entryMarks entries →
    after.object? mark = some object

/-- What is put into a mapping within another one is put along a longer path. -/
theorem Lens.within {inner : Nat} {old : List (Key × Document)} {first : String}
    (stands : store.Stands (.mapping (some site) entries)) (single : (Document.mapping (some site) entries).IsSingle)
    (found : Entries.find? entries (.text first) = some (.mapping (some inner) old))
    (lens : Lens store after inner old cell path) : Lens store after site entries cell (first :: path) := by
  obtain ⟨present, member, face⟩ := Entries.find?_entry found
  have inside {mark : Nat} (known : mark = inner ∨ mark ∈ entryMarks old) : mark ∈ entryMarks entries :=
    (Document.part_marks member).subset (List.mem_cons.mpr known)
  have still : after.object? site = some (.mapping (Entries.mapValues Document.cell entries)) :=
    lens.kept site _ stands.here (fun same => single.apart (inside (.inl same)))
      fun known => single.apart (inside (.inr known))
  refine ⟨?_, fun other separate => ?_, fun mark object there different unknown => ?_⟩
  · rw [List.map_cons, Store.walk_cons, Store.mapping?_of_object? still, Option.bind_some, Store.find?,
      Store.entries_of_object? still, Entries.find?_mapValues, found]
    exact lens.here
  · cases other with
    | nil => exact absurd (meet_nil_right _) separate
    | cons next rest =>
        refine .cons still (Entries.find?_mapValues _ _ _) fun part there => ?_
        by_cases same : next = first
        · subst same
          cases found.symm.trans there
          exact lens.apart rest fun meet => separate (meet_cons.mpr ⟨rfl, meet⟩)
        · obtain ⟨title, listed, alike⟩ := Entries.find?_entry there
          have different : (title, part) ≠ (present, Document.mapping (some inner) old) := by
            rintro whole
            cases whole
            exact same (Face.text.inj (alike.trans face.symm))
          refine .of_stands ((stands.part listed).kept fun mark known object found => ?_) _
          have foreign := single.disjoint listed member different mark known
          rw [Document.mem_marks_mapping, not_or] at foreign
          exact lens.kept mark object found foreign.1 foreign.2
  · exact lens.kept mark object there (fun same => unknown (inside (.inl same))) fun known => unknown (inside (.inr known))

theorem Lens.put (stands : store.Stands (.mapping (some site) entries))
    (single : (Document.mapping (some site) entries).IsSingle) (cell : Cell) (last : String) :
    Lens store (store.put site (.text last) cell) site entries cell [last] := by
  have here : (store.put site (.text last) cell).object? site = _ := Store.object?_put_same stands.here
  refine ⟨?_, fun other separate => ?_, fun mark object found different _ => ?_⟩
  · rw [List.map_singleton, Store.walk_cons, Store.mapping?_of_object? here, Option.bind_some, Store.find?,
      Store.entries_of_object? here, Entries.findPutSame]
    rfl
  · cases other with
    | nil => exact absurd (meet_nil_right _) separate
    | cons next rest =>
        have other : (Key.text next).face ≠ (Key.text last).face := fun same =>
          separate (meet_cons.mpr ⟨(Face.text.inj same).symm, meet_nil_left rest⟩)
        refine .cons here ?_ fun part found => ?_
        · rw [Entries.findPutOther _ _ other, Entries.find?_mapValues]
        · obtain ⟨present, member⟩ := Entries.find?_mem found
          exact .of_stands ((stands.part member).put_apart fun known =>
            single.apart ((Document.part_marks member).subset known)) _
  · rwa [Store.object?_put_other different]

/-- An empty mapping that takes the place of what is none leads nowhere, as that did. -/
theorem created_reach {mark : Option Nat} {new : Nat} {next : String} {others : List String}
    (lacks : ∀ mark old, Entries.find? entries (.text name) ≠ some (.mapping mark old))
    (separate : ¬ Meet (name :: next :: others) other) :
    (Document.mapping mark (Entries.put entries (.text name) (.mapping (some new) []))).reach (other.map .text) =
      (Document.mapping mark entries).reach (other.map .text) := by
  cases other with
  | nil => exact absurd (meet_nil_right _) separate
  | cons first rest =>
      change (Entries.find? (Entries.put entries (.text name) _) (.text first)).bind _ =
        (Entries.find? entries (.text first)).bind _
      by_cases same : first = name
      · subst same
        rw [Entries.findPutSame]
        cases rest with
        | nil => exact absurd (meet_cons.mpr ⟨rfl, meet_nil_right _⟩) separate
        | cons second more =>
            cases found : Entries.find? entries (.text first) with
            | none => rfl
            | some held =>
                cases held with
                | mapping mark old => exact absurd found (lacks mark old)
                | _ => rfl
      · rw [Entries.findPutOther _ _ fun alike : (Key.text first).face = (Key.text name).face =>
          same (Face.text.inj alike)]

theorem putAlong_lens (filled : path ≠ []) (stands : store.Stands (.mapping (some site) entries))
    (single : (Document.mapping (some site) entries).IsSingle) (cell : Cell) :
    Lens store (putAlong store site cell path) site entries cell path := by
  induction path generalizing store site entries with
  | nil => exact absurd rfl filled
  | cons name more ih =>
      cases more with
      | nil => exact .put stands single cell name
      | cons next others =>
          have further : next :: others ≠ [] := List.cons_ne_nil next others
          rcases below_cases stands (.text name) with ⟨inner, old, found, below⟩ | ⟨below, lacks⟩
          · obtain ⟨present, member⟩ := Entries.find?_mem found
            rw [putAlong, below]
            · exact .within stands single found (ih further (stands.part member) (single.part member))
            · exact further
          · have created := Store.Turned.created stands single (.text name)
            have placed := Entries.findPutSame entries (.text name) (Document.mapping (some store.newSite) [])
            obtain ⟨present, member⟩ := Entries.find?_mem placed
            have lens := Lens.within created.stands created.single placed
              (ih further (created.stands.part member) (created.single.part member))
            rw [putAlong, below]
            · refine ⟨lens.here, fun other separate => (lens.apart other separate).congr ?_,
                fun mark object found different unknown => ?_⟩
              · exact created_reach lacks separate
              · refine lens.kept mark object (created.kept mark object found different unknown List.not_mem_nil) different
                  fun known => ?_
                rcases created.marks mark known with held | given | new
                · exact unknown held
                · cases given
                · exact absurd (Store.site_lt found) (Nat.not_lt.mpr new)
            · exact further

/-! ### Setting and getting -/

/-- One gets what was set. Under all names that do not meet the name one gets what one got, if no object of the
settings stands in two places, and it is as it was. Where a document is set that comes from outside, and of which no
object stands in two places either, one finds below the name what is in the document, what was set earlier under the
name leaves no trace, and setting what is there changes no value. -/
theorem set_lens (plain : live.IsSingle) (name : String) :
    (∀ cell missing, (live.set name cell).get name missing = cell) ∧
    (∀ cell other, ¬ (parts name <+: parts other ∨ parts other <+: parts name) →
      (∀ missing, (live.set name cell).get other missing = live.get other missing) ∧
      ∀ found, live.get? other = some found → (live.set name cell).store.look found = live.store.look found) ∧
    ∀ document : Document, document.IsSingle →
      let after := (live.bring document).1.set name (live.bring document).2
      after.IsSingle ∧
      (∀ rest, find? (.dict after.shown.tree) (parts name ++ rest) = find? document.value rest) ∧
      (∀ later : Document, later.IsSingle → ((after.bring later).1.set name (after.bring later).2).shown =
        ((live.bring later).1.set name (live.bring later).2).shown) ∧
      (find? (.dict live.shown.tree) (parts name) = some document.value → after.shown.tree = live.shown.tree) := by
  refine ⟨fun cell missing => ?_, fun cell other apart => ?_, fun document single => ?_⟩
  · obtain ⟨entries, holds⟩ := plain
    have here : (live.set name cell).get? name = some cell :=
      (putAlong_lens (parts_ne_nil name) holds.stands holds.single cell).here
    rw [get, here, Option.getD_some]
  · obtain ⟨entries, holds⟩ := plain
    obtain ⟨leads, stands⟩ :=
      (putAlong_lens (parts_ne_nil name) holds.stands holds.single cell).apart (parts other) apart
    have before := holds.stands.walk ((parts other).map .text)
    have same : (live.set name cell).get? other = live.get? other := leads.trans before.symm
    refine ⟨fun missing => by rw [get, get, same], fun found leads => ?_⟩
    obtain ⟨part, reached, rfl⟩ := Option.map_eq_some_iff.mp (before.symm.trans leads)
    have single : part.IsSingle := List.Nodup.sublist (Document.reach_marks reached) holds.single
    exact ((stands part reached).look single).trans ((holds.stands.reach reached).look single).symm
  · have mirrors := plain.mirrors.set single name
    refine ⟨mirrors.single, fun rest => ?_, fun later alone => ?_, fun found => ?_⟩
    · rw [mirrors.shown]
      exact set_below live.shown name document.value rest
    · rw [(mirrors.set alone name).shown, (plain.mirrors.set alone name).shown, set_set]
    · rw [mirrors.shown]
      exact put_here found

/-- A name is set below the log file, where there was no mapping. -/
theorem set_lens_file :
    let after := initial.set "logging.file.name" (.scalar (.text "run.log"))
    initial.IsSingle ∧ initial.get "logging.file" (.scalar (.int 0)) = .scalar .null ∧
      (∀ missing, after.get "logging.file.name" missing = .scalar (.text "run.log")) ∧
      ∀ missing, after.get "logging.level" missing = .scalar (.text "INFO") := by
  intro after
  have plain : initial.IsSingle := (fresh_mirrors .empty).single
  have file : parts "logging.file" = ["logging", "file"] := parts_pair "logging" "file" (by decide) (by decide)
  have level : parts "logging.level" = ["logging", "level"] := parts_pair "logging" "level" (by decide) (by decide)
  have inner : parts "logging.file.name" = ["logging", "file", "name"] := by
    rw [show "logging.file.name" = "logging.file" ++ "." ++ "name" from rfl, parts_dotted, file,
      parts_plain (by decide : '.' ∉ "name".toList)]
    rfl
  obtain ⟨here, elsewhere, -⟩ := set_lens plain "logging.file.name"
  refine ⟨plain, ?_, here _, fun missing => ((elsewhere _ "logging.level" ?_).1 missing).trans ?_⟩
  · rw [get, get?, file]
    rfl
  · rw [inner, level]
    decide
  · rw [get, get?, level]
    rfl

/-- One mapping stands under two names, and a name below the first of them is set. Then something else is found
below the second, though neither name begins the other. -/
theorem shared_mapping_set :
    let shared := Document.mapping (some 0) [(.text "p", .scalar (.int 1))]
    let live := (initial.loadDocument 990 (.mapping none [(.text "a", shared), (.text "b", shared)])).live
    let after := live.set "a.p" (.scalar (.int 2))
    ¬ (parts "a.p" <+: parts "b.p" ∨ parts "b.p" <+: parts "a.p") ∧
      live.get "b.p" (.scalar .null) = .scalar (.int 1) ∧ after.get "b.p" (.scalar .null) = .scalar (.int 2) := by
  have first : parts "a.p" = ["a", "p"] := parts_pair "a" "p" (by decide) (by decide)
  have second : parts "b.p" = ["b", "p"] := parts_pair "b" "p" (by decide) (by decide)
  unfold get get? Live.set
  rw [first, second]
  refine ⟨by decide, ?_, ?_⟩ <;> rfl

end ChipEight.Settings.Live
