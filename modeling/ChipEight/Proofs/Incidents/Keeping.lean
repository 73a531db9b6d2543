/-
This file says which incidents are kept. A bound that is a whole number never makes a report fail, and
a positive one keeps as many of the latest incidents.
-/

import ChipEight.Incidents
import ChipEight.Proofs.Value.Arithmetic

namespace ChipEight

/-- The incidents after some reports, one after another. -/
def Incidents.handleAll (incidents : Incidents) (reports : List Report) : Incidents :=
  reports.foldl (fun kept report => (kept.handle report).incidents) incidents

namespace Incidents

/-- Of more items than a positive number the last are kept, as many as that. -/
theorem latest_int {A : Type} {count : Nat} (positive : 0 < count) (items : List A) :
    latest (.int count) items = .ok (items.drop (items.length - count)) := by
  unfold latest
  rw [Value.less_int]
  change (if decide ((count : Int) < items.length) = true then
    (Except.ok (lastOf items count) : Except Fault (List A)) else .ok items) = _
  split
  case isTrue more =>
    unfold lastOf
    rw [if_pos (by omega)]
    rfl
  case isFalse fewer =>
    have none : items.length - count = 0 := by
      rw [decide_eq_true_iff] at fewer
      omega
    rw [none, List.drop_zero]

/-- An incident is put behind those that are kept, of which the first may have to go. -/
theorem add_eq {incidents : Incidents} {count : Nat} (keeps : incidents.keeps = true)
    (bound : incidents.bound = .int count) (positive : 0 < count) (incident : Incident) :
    incidents.add incident = ({ incidents with
      kept := (incidents.kept ++ [incident]).drop (incidents.kept.length + 1 - count) }, .ok ()) := by
  have latest := latest_int positive (incidents.kept ++ [incident])
  rw [List.length_append, List.length_singleton, ← bound] at latest
  unfold add
  rw [if_pos keeps]
  dsimp only
  rw [latest]

/-- An incident is left as it is, and no fault ends the host, whoever is told. -/
theorem heard_left (incident : Incident) (watcher : Option Watcher) :
    ∃ failure : Option Fault, heard incident watcher = (incident, failure) ∧
      ∀ fault, failure = some fault → fault.isExit = false := by
  cases watcher with
  | none => exact ⟨none, rfl, nofun⟩
  | some watcher => exact ⟨_, Prod.ext (watcher.leaves incident) rfl, watcher.stays incident⟩

/-- What comes of a report of an incident that finds its place, whoever watches. -/
theorem handle_added {incidents grown : Incidents} {report : Report}
    (added : incidents.add (Incident.ofReport report) = (grown, .ok ())) :
    (incidents.handle report).incidents = grown ∧
      (incidents.handle report).result = .ok (Incident.ofReport report) := by
  obtain ⟨failure, hears, stays⟩ :=
    heard_left (.ofReport report) (incidents.watcher? (Incident.ofReport report).category)
  cases failure with
  | none => simp [handle, added, hears]
  | some fault => simp [handle, added, hears, stays fault rfl]

theorem handle_incidents {incidents grown : Incidents} {report : Report}
    (added : incidents.add (Incident.ofReport report) = (grown, .ok ())) :
    (incidents.handle report).incidents = grown :=
  (handle_added added).1

/-- The bound on the incidents that are kept is a whole number, of any sign. -/
def Whole (incidents : Incidents) : Prop :=
  ∃ count : Int, incidents.bound = .int count

/-- The latest items can be taken for every whole number. -/
theorem latest_whole {A : Type} (count : Int) (items : List A) :
    ∃ kept, latest (.int count) items = .ok kept := by
  unfold latest
  rw [Value.less_int]
  change ∃ kept, (if decide (count < items.length) = true then
    (Except.ok (lastOf items count) : Except Fault (List A)) else .ok items) = .ok kept
  split
  · exact ⟨_, rfl⟩
  · exact ⟨_, rfl⟩

theorem Whole.add {incidents : Incidents} (whole : incidents.Whole) (incident : Incident) :
    ∃ grown, incidents.add incident = (grown, .ok ()) ∧ grown.Whole := by
  obtain ⟨count, bound⟩ := whole
  obtain ⟨kept, latest⟩ := latest_whole count (incidents.kept ++ [incident])
  unfold Incidents.add
  cases incidents.keeps with
  | false => exact ⟨incidents, rfl, count, bound⟩
  | true =>
      dsimp only
      rw [bound, latest]
      exact ⟨_, rfl, count, rfl⟩

/-- A report does not fail where the bound is a whole number, whoever watches, and leaves the bound. -/
theorem Whole.handle {incidents : Incidents} (whole : incidents.Whole) (report : Report) :
    (incidents.handle report).result = .ok (Incident.ofReport report) ∧
      (incidents.handle report).incidents.Whole := by
  obtain ⟨grown, added, stays⟩ := whole.add (Incident.ofReport report)
  obtain ⟨kept, answered⟩ := handle_added added
  exact ⟨answered, kept ▸ stays⟩

end Incidents

end ChipEight
