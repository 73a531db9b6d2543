/-
This file says which incidents are kept in the long run: the latest of those that were reported since the
last clear, whoever watches. What is asked of them by level and category, and what their summary counts,
agree with what is kept.
-/

import ChipEight.Proofs.Incidents.Keeping
import Mathlib.Algebra.GroupWithZero.Nat
import Mathlib.Data.List.Induction

namespace ChipEight

namespace Incidents

/-! ### Counting names -/

/-- The counts after one more name. -/
def oneMore (counts : List (String × Nat)) (name : String) : List (String × Nat) :=
  if counts.any fun entry => entry.1 == name then
    counts.map fun entry => if entry.1 == name then (name, entry.2 + 1) else entry
  else counts ++ [(name, 1)]

section

variable {counts rest : List (String × Nat)} {names : List String} {name first : String}

/-- A name that has a count keeps its place. -/
theorem oneMore_same (count : Nat) (new : name ∉ rest.map Prod.fst) :
    oneMore ((name, count) :: rest) name = (name, count + 1) :: rest := by
  have others : rest.map (fun entry => if entry.1 == name then (name, entry.2 + 1) else entry) = rest := by
    calc
      _ = rest.map id := List.map_congr_left fun entry member => if_neg fun same =>
        new (List.mem_map.mpr ⟨entry, member, eq_of_beq same⟩)
      _ = rest := List.map_id rest
  unfold oneMore
  rw [if_pos (by simp), List.map_cons, others]
  simp

theorem oneMore_other (count : Nat) (other : first ≠ name) :
    oneMore ((first, count) :: rest) name = (first, count) :: oneMore rest name := by
  unfold oneMore
  rw [List.any_cons, beq_false_of_ne other, Bool.false_or]
  split
  · simp [other]
  · rfl

/-- Each name is there once with the number of times that it came, and no other name is there. -/
structure Counts (counts : List (String × Nat)) (names : List String) : Prop where
  single : (counts.map Prod.fst).Nodup
  known : ∀ name, name ∈ counts.map Prod.fst ↔ name ∈ names
  found : ∀ name, (counts.lookup name).getD 0 = names.count name
  whole : (counts.map Prod.snd).sum = names.length

theorem oneMore_names (single : (counts.map Prod.fst).Nodup) :
    ((oneMore counts name).map Prod.fst).Nodup ∧ ∀ other, other ∈ (oneMore counts name).map Prod.fst ↔
      other ∈ counts.map Prod.fst ∨ other = name := by
  induction counts with
  | nil => simp [oneMore]
  | cons entry rest ih =>
      obtain ⟨first, count⟩ := entry
      obtain ⟨new, others⟩ := List.nodup_cons.mp single
      obtain ⟨kept, known⟩ := ih others
      by_cases same : first = name
      · subst same
        rw [oneMore_same count new]
        refine ⟨single, fun other => ⟨.inl, ?_⟩⟩
        rintro (there | rfl)
        · exact there
        · exact List.mem_cons_self
      · rw [oneMore_other count same, List.map_cons, List.map_cons]
        refine ⟨List.nodup_cons.mpr ⟨?_, kept⟩, fun other => ?_⟩
        · rw [known]
          exact fun there => there.elim new same
        · rw [List.mem_cons, List.mem_cons, known, or_assoc]

theorem oneMore_lookup (single : (counts.map Prod.fst).Nodup) (other : String) :
    ((oneMore counts name).lookup other).getD 0 =
      (counts.lookup other).getD 0 + if other = name then 1 else 0 := by
  induction counts with
  | nil =>
      change ([(name, 1)].lookup other).getD 0 = 0 + _
      by_cases same : other = name
      · simp [same]
      · simp [same, List.lookup_cons, beq_false_of_ne same]
  | cons entry rest ih =>
      obtain ⟨first, count⟩ := entry
      obtain ⟨new, others⟩ := List.nodup_cons.mp single
      by_cases same : first = name
      · subst same
        rw [oneMore_same count new, List.lookup_cons, List.lookup_cons]
        by_cases here : other = first
        · simp [here]
        · simp [here, beq_false_of_ne here]
      · rw [oneMore_other count same, List.lookup_cons, List.lookup_cons]
        by_cases here : other = first
        · subst here
          simp [same]
        · simp [beq_false_of_ne here, ih others]

theorem oneMore_whole (single : (counts.map Prod.fst).Nodup) :
    ((oneMore counts name).map Prod.snd).sum = (counts.map Prod.snd).sum + 1 := by
  induction counts with
  | nil => simp [oneMore]
  | cons entry rest ih =>
      obtain ⟨first, count⟩ := entry
      obtain ⟨new, others⟩ := List.nodup_cons.mp single
      by_cases same : first = name
      · subst same
        rw [oneMore_same count new]
        simp only [List.map_cons, List.sum_cons]
        omega
      · rw [oneMore_other count same]
        simp only [List.map_cons, List.sum_cons, ih others]
        omega

theorem Counts.oneMore (counted : Counts counts names) :
    Counts (oneMore counts name) (names ++ [name]) where
  single := (oneMore_names counted.single).1
  known other := by
    rw [(oneMore_names counted.single).2, counted.known, List.mem_append, List.mem_singleton]
  found other := by
    rw [oneMore_lookup counted.single, counted.found, List.count_append, List.count_singleton]
    by_cases same : other = name
    · simp [same]
    · simp [same, Ne.symm same]
  whole := by
    rw [oneMore_whole counted.single, counted.whole, List.length_append, List.length_singleton]

end

/-! ### Asking for incidents -/

/-- An incident shows the names of the level and the category that are asked for, where they are. -/
def answers (level : Option Level) (category : Option Category) (incident : Incident) : Bool :=
  (level.all fun wanted => incident.level.name == wanted.name) &&
    category.all fun wanted => incident.category.name == wanted.name

theorem level_name_inj {first second : Level} : first.name = second.name ↔ first = second := by
  cases first <;> cases second <;> decide

theorem category_name_inj {first second : Category} : first.name = second.name ↔ first = second := by
  cases first <;> cases second <;> decide

variable {incidents : Incidents}

theorem select_eq (level : Option Level) (category : Option Category) :
    incidents.select level category = incidents.kept.filter (answers level category) := by
  refine List.filter_congr fun incident _ => ?_
  unfold answers
  congr 1
  · cases level with
    | none => rfl
    | some wanted =>
        rw [Bool.eq_iff_iff]
        simp only [Option.isNone_some, Bool.false_or, Option.all_some, beq_iff_eq, Option.some.injEq,
          level_name_inj]
        exact eq_comm
  · cases category with
    | none => rfl
    | some wanted =>
        rw [Bool.eq_iff_iff]
        simp only [Option.isNone_some, Bool.false_or, Option.all_some, beq_iff_eq, Option.some.injEq,
          category_name_inj]
        exact eq_comm

/-- What is done with incidents: one is reported, all are cleared, or a watcher comes or goes. -/
inductive Deed where
  | report (told : Report)
  | clear
  | watch (category : Category) (watcher : Watcher)
  | unwatch (category : Category)

def Deed.on (incidents : Incidents) : Deed → Incidents
  | report told => (incidents.handle told).incidents
  | clear => incidents.clear
  | watch category watcher => incidents.watch category watcher
  | unwatch category => incidents.unwatch category

/-- The incidents after deeds one after another. -/
def performed (incidents : Incidents) (deeds : List Deed) : Incidents :=
  deeds.foldl Deed.on incidents

/-- The incidents that were reported up to now and not cleared, after one more deed. -/
def Deed.noted (log : List Incident) : Deed → List Incident
  | report told => log ++ [Incident.ofReport told]
  | clear => []
  | watch _ _ => log
  | unwatch _ => log

/-- All incidents that were reported since the last clear, oldest first. -/
def reported (deeds : List Deed) : List Incident :=
  deeds.foldl Deed.noted []

/-- The last of a log are kept, as many as there is room for. -/
structure Keeps (incidents : Incidents) (count : Nat) (log : List Incident) : Prop where
  keeps : incidents.keeps = true
  bound : incidents.bound = .int count
  latest : incidents.kept = log.drop (log.length - count)

variable {count : Nat} {log : List Incident}

/-- One item more on a shortened list, which is shortened again, is the longer list shortened. -/
theorem drop_snoc {A : Type} (items : List A) (item : A) (count : Nat) :
    (items.drop (items.length - count) ++ [item]).drop
        ((items.drop (items.length - count)).length + 1 - count) =
      (items ++ [item]).drop ((items ++ [item]).length - count) := by
  have within : items.length - count ≤ items.length := Nat.sub_le _ _
  rw [← List.drop_append_of_le_length within, List.drop_drop, List.length_drop, List.length_append,
    List.length_singleton]
  congr 1
  omega

theorem Keeps.on (before : Keeps incidents count log) (positive : 0 < count) (deed : Deed) :
    Keeps (deed.on incidents) count (deed.noted log) := by
  obtain ⟨keeps, bound, latest⟩ := before
  cases deed with
  | report told =>
      have added := add_eq keeps bound positive (Incident.ofReport told)
      change Keeps (incidents.handle told).incidents count _
      rw [handle_incidents added]
      refine ⟨keeps, bound, ?_⟩
      dsimp only
      rw [latest]
      exact drop_snoc log _ count
  | clear => exact ⟨keeps, bound, List.drop_nil.symm⟩
  | watch category watcher => exact ⟨keeps, bound, latest⟩
  | unwatch category => exact ⟨keeps, bound, latest⟩

theorem Keeps.performed (before : Keeps incidents count log) (positive : 0 < count) (deeds : List Deed) :
    Keeps (incidents.performed deeds) count (deeds.foldl Deed.noted log) := by
  induction deeds generalizing incidents log with
  | nil => exact before
  | cons deed rest ih => exact ih (before.on positive deed)

theorem Keeps.last (keeping : Keeps incidents count log) (positive : 0 < count) :
    incidents.kept.getLast? = log.getLast? := by
  rw [keeping.latest, List.getLast?_drop]
  split
  case isTrue short =>
    rw [List.getLast?_eq_none_iff.mpr]
    rw [← List.length_eq_zero_iff]
    omega
  case isFalse => rfl

/-- A mapping shows all that is known of an incident under its names, and has no others. -/
structure Shows (shown : Value) (incident : Incident) : Prop where
  names : shown.entries?.map Entries.names = some
    (["level", "category", "message", "exception_type", "traceback", "context"].map Key.text)
  level : shown.field? "level" = some (.text incident.level.name)
  category : shown.field? "category" = some (.text incident.category.name)
  message : shown.field? "message" = some incident.message
  kind : shown.field? "exception_type" = some ((incident.cause.map fun cause => .text cause.1).getD .null)
  trace : shown.field? "traceback" = some ((incident.cause.map fun cause => .text cause.2.text).getD .null)
  context : shown.field? "context" = some incident.context

end Incidents

end ChipEight
