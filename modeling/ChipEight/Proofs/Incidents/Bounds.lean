/-
This file says how many incidents are kept and given under any bound that is not negative. A positive bound
is never exceeded; a bound of zero is none at all, so that everything is kept, and everything is given.
-/

import ChipEight.Proofs.Incidents.History

namespace ChipEight

namespace Incidents

section

variable {A : Type} (items : List A)

theorem lastOf_nat (count : Nat) :
    lastOf items count = if count = 0 then items else items.drop (items.length - count) := by
  unfold lastOf
  split
  case isTrue some =>
    rw [if_neg (by omega)]
    rfl
  case isFalse none =>
    rw [if_pos (by omega), show (-(count : Int)).toNat = 0 by omega, List.drop_zero]

/-- The last items are taken in the same way for zero, where this leaves all of them. -/
theorem latest_nat (count : Nat) : latest (.int count) items = .ok (lastOf items count) := by
  rw [lastOf_nat]
  split
  case isTrue zero =>
    subst zero
    simp only [latest, Value.less_int]
    change (if decide ((0 : Int) < items.length) = true then
      (Except.ok (lastOf items 0) : Except Fault (List A)) else .ok items) = _
    split <;> rfl
  case isFalse some => exact latest_int (Nat.pos_of_ne_zero some) items

theorem lastOf_length_le_iff (count : Nat) : (lastOf items count).length ≤ count ↔ 0 < count ∨ items = [] := by
  rw [lastOf_nat]
  split
  case isTrue zero => simp [zero]
  case isFalse some =>
    simp only [List.length_drop, Nat.pos_of_ne_zero some, true_or, iff_true]
    omega

theorem lastOf_snoc (item : A) (count : Nat) :
    lastOf (lastOf items count ++ [item]) count = lastOf (items ++ [item]) count := by
  simp only [lastOf_nat]
  split
  case isTrue => rfl
  case isFalse =>
    rw [List.length_append, List.length_singleton]
    exact drop_snoc items item count

/-- A number of items is asked for: zero asks for all of them, as no number does. -/
theorem atMost_nat (count : Nat) : atMost (.int count) items = .ok (lastOf items count) := by
  unfold atMost
  split
  case isTrue => exact latest_nat items count
  case isFalse zero =>
    have zero : count = 0 := by simpa [Value.isTrue] using zero
    rw [lastOf_nat, if_pos zero]

end

variable {incidents : Incidents} {keeps : Bool} {count : Nat} {log : List Incident}

/-- The last incidents of a log are kept, if any are kept at all. -/
structure Retains (incidents : Incidents) (keeps : Bool) (count : Nat) (log : List Incident) : Prop where
  same : incidents.keeps = keeps
  bound : incidents.bound = .int count
  kept : incidents.kept = if keeps then lastOf log count else []

theorem empty_retains (keeps : Bool) (count : Nat) : Retains (empty keeps (.int count)) keeps count [] := by
  refine ⟨rfl, rfl, ?_⟩
  simp [empty, lastOf_nat]

theorem Retains.on (before : Retains incidents keeps count log) (deed : Deed) :
    Retains (deed.on incidents) keeps count (deed.noted log) := by
  obtain ⟨same, bound, kept⟩ := before
  cases deed with
  | report told =>
      have added : incidents.add (Incident.ofReport told) = ({ incidents with
          kept := if keeps then lastOf (log ++ [.ofReport told]) count else [] }, .ok ()) := by
        cases keeps with
        | false =>
            simp only [Bool.false_eq_true, if_false] at kept ⊢
            rw [add, if_neg (by simp [same]), ← kept]
        | true =>
            -- What is kept is shortened once more, which is what shortening the whole log gives.
            simp only [if_true] at kept ⊢
            simp only [add, same, if_true, bound, kept, latest_nat, lastOf_snoc]
      change Retains (incidents.handle told).incidents keeps count _
      rw [handle_incidents added]
      exact ⟨same, bound, rfl⟩
  | clear =>
      refine ⟨same, bound, ?_⟩
      cases keeps with
      | false => rfl
      | true => simp [Deed.on, Deed.noted, clear, lastOf_nat]
  | watch category watcher => exact ⟨same, bound, kept⟩
  | unwatch category => exact ⟨same, bound, kept⟩

theorem Retains.performed (before : Retains incidents keeps count log) (deeds : List Deed) :
    Retains (incidents.performed deeds) keeps count (deeds.foldl Deed.noted log) := by
  induction deeds generalizing incidents log with
  | nil => exact before
  | cons deed rest ih => exact ih (before.on deed)

/-- After reports, clears and changes of watchers in any order, the last incidents since the last clear are
kept, as many as a positive bound says, and all of them if it is zero. So there are no more than the bound
unless it is zero and something was reported since. It is the same with a number of incidents that are asked
for by level and category: zero gives all of them. -/
theorem history_bounded_iff (keeps : Bool) (count : Nat) (deeds : List Deed) :
    let incidents := (empty keeps (.int count)).performed deeds
    let log := if keeps then reported deeds else []
    (∀ report, (incidents.handle report).result = .ok (Incident.ofReport report)) ∧
    incidents.kept = (if count = 0 then log else log.drop (log.length - count)) ∧
    (incidents.kept.length ≤ count ↔ 0 < count ∨ log = []) ∧
    ∀ level category (number : Nat), ∃ given,
      atMost (.int number) (incidents.select level category) = .ok given ∧
      given = (if number = 0 then incidents.select level category else
        (incidents.select level category).drop ((incidents.select level category).length - number)) ∧
      (given.length ≤ number ↔ 0 < number ∨ incidents.select level category = []) := by
  intro incidents log
  have reached : Retains incidents keeps count (reported deeds) := (empty_retains keeps count).performed deeds
  have kept : incidents.kept = lastOf log count := by
    rw [reached.kept]
    cases keeps with
    | false => simp [log, lastOf_nat]
    | true => rfl
  refine ⟨fun report => (Whole.handle ⟨count, reached.bound⟩ report).1, ?_, ?_, fun level category number =>
    ⟨_, atMost_nat _ number, lastOf_nat _ number, lastOf_length_le_iff _ number⟩⟩
  · rw [kept, lastOf_nat]
  · rw [kept, lastOf_length_le_iff]

/-- With a bound of zero an incident is kept, and given to whoever asks for none. -/
theorem zero_bound_exceeded :
    let incidents := (empty true (.int 0)).performed [.report (warning "a" .decode .null)]
    ¬ incidents.kept.length ≤ 0 ∧
      ∃ given, atMost (.int 0) (incidents.select none none) = .ok given ∧ ¬ given.length ≤ 0 := by
  intro incidents
  have kept : incidents.kept = [.ofReport (warning "a" .decode .null)] :=
    ((empty_retains true 0).performed [.report (warning "a" .decode .null)]).kept
  have selected : incidents.select none none = incidents.kept := by
    rw [select_eq]
    exact List.filter_eq_self.mpr fun _ _ => rfl
  refine ⟨by simp [kept], _, atMost_nat _ 0, ?_⟩
  rw [lastOf_nat, if_pos rfl, selected, kept]
  simp

end Incidents

end ChipEight
