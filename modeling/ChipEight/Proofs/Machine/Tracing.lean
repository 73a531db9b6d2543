/-
This file says what the machine reports of the words that it executes, and what is its last word after a
cycle: the word that the cycle executes, or the same as before if it executes none.
-/

import ChipEight.Proofs.Machine.Accounts
import ChipEight.Proofs.Machine.Execution
import ChipEight.Proofs.Machine.Frame

namespace ChipEight

/-- The word that an event says was executed. -/
def Event.word? (event : Event) : Option Int := event.executed?.map Prod.fst

namespace Machine

/-- The word that the next cycle says it executes. -/
def word? (machine : Machine) : Option Int := machine.cycle.events.findSome? Event.word?

/-- The word that the next cycle executes, or the last one if it executes none. -/
def lastWord (machine : Machine) : Int := machine.word?.getD machine.last

/-- The machine runs and its counter is in order. -/
structure Runs (machine : Machine) : Prop where
  awake : machine.halted = false
  few : machine.errors < haltThreshold
  allowed : isProgramAddress machine.counter = true

variable {machine : Machine}

theorem words_silent {events : List Event} (silent : events.findSome? Event.executed? = none) :
    events.filterMap Event.word? = [] := by
  rw [List.filterMap_eq_nil_iff]
  intro event member
  rw [Event.word?, List.findSome?_eq_none_iff.mp silent event member]
  rfl

theorem checkErrors_silent (machine : Machine) :
    machine.checkErrors.events.findSome? Event.executed? = none := by
  unfold checkErrors
  split <;> rfl

theorem performed_last (machine : Machine) : machine.performed.machine.last = machine.fetch.result :=
  (machine.loaded.perform_verdict machine.fetch.result).counts.2.2.1

/-- What is told of the word of a cycle: it executes none and keeps the last one, or its word ends with a
fault, or it executes the word. -/
inductive Told (machine : Machine) : Prop where
  | idle (rests : ¬ machine.Runs) (ends : machine.cycle.result = .ok ())
      (words : machine.cycle.events.filterMap Event.word? = [])
      (last : machine.cycle.machine.last = machine.last)
  | faulted (fault : Fault) (ends : machine.cycle.result = .error fault)
      (words : machine.cycle.events.filterMap Event.word? = [])
      (last : machine.cycle.machine.last = machine.begun.fetch.result)
  | executed (runs : machine.Runs) (ends : machine.cycle.result = .ok ())
      (words : machine.cycle.events.filterMap Event.word? = [machine.begun.fetch.result])
      (last : machine.cycle.machine.last = machine.begun.fetch.result)

theorem cycle_told (machine : Machine) : machine.Told := by
  rcases machine.cycle_cases with ⟨stopped, goes⟩ | ⟨-, many, goes⟩ | ⟨-, -, complaint, found, goes⟩ |
    ⟨awake, few, allowed, goes⟩
  · refine .idle (fun runs => ?_) (by rw [goes]) (by rw [goes]; rfl) (by rw [goes])
    exact Bool.false_ne_true (runs.awake.symm.trans stopped)
  · refine .idle (fun runs => ?_) (by rw [goes]) (by rw [goes]; rfl) (by rw [goes])
    exact Int.not_le.mpr runs.few many
  · refine .idle (fun runs => ?_) (by rw [goes]; rfl) ?_ ?_
    · rw [(counterComplaint?_eq_none_iff machine).mpr runs.allowed] at found
      cases found
    · rw [goes]
      exact words_silent (checkErrors_silent _)
    · rw [goes, correct_machine]
      rfl
  · have fetching : machine.begun.fetch.events.filterMap Event.word? = [] :=
      words_silent (fetch_silent allowed)
    have performing : machine.begun.performed.events.filterMap Event.word? = [] :=
      words_silent (perform_silent _ _)
    rcases machine.begun.advance_cases with ⟨fault, -, faults⟩ | ⟨status, -, -, ends, -⟩
    · refine .faulted fault (by rw [goes, faults]) ?_ ?_
      · rw [goes, faults, List.filterMap_append, fetching, performing]
        rfl
      · rw [goes, faults]
        exact machine.begun.performed_last
    · have advances := machine.begun.advance_ok ends
      refine .executed ⟨awake, few, allowed⟩ (by rw [goes, advances]) ?_ ?_
      · rw [goes, advances, List.filterMap_append, List.filterMap_append, fetching, performing,
          List.filterMap_cons, words_silent (checkErrors_silent _)]
        rfl
      · rw [goes, advances]
        dsimp only
        rw [checkErrors_machine]
        exact machine.begun.performed_last

theorem word?_eq (machine : Machine) :
    machine.word? = (machine.cycle.events.filterMap Event.word?).head? :=
  List.head?_filterMap.symm

/-- A cycle says of at most one word that it was executed. -/
theorem cycle_words (machine : Machine) :
    machine.cycle.events.filterMap Event.word? = machine.word?.toList := by
  rw [word?_eq]
  cases machine.cycle_told with
  | idle _ _ words => rw [words]; rfl
  | faulted _ _ words => rw [words]; rfl
  | executed _ _ words => rw [words]; rfl

theorem cycle_last (ends : machine.cycle.result = .ok ()) :
    machine.cycle.machine.last = machine.lastWord := by
  rw [lastWord, word?_eq]
  cases machine.cycle_told with
  | idle _ _ words last => rw [words, last]; rfl
  | faulted fault fails => rw [fails] at ends; cases ends
  | executed _ _ words last => rw [words, last]; rfl

/-- A cycle that ends without a fault executes a word if the machine runs. -/
theorem word?_isSome_iff (ends : machine.cycle.result = .ok ()) :
    machine.word?.isSome = true ↔ machine.Runs := by
  rw [word?_eq]
  cases machine.cycle_told with
  | idle rests _ words => simp [words, rests]
  | faulted fault fails => rw [fails] at ends; cases ends
  | executed runs _ words => simp [words, runs]

theorem word?_of_faces {word : Int} (faces : machine.Faces word)
    (ends : machine.cycle.result = .ok ()) : machine.word? = some word := by
  have found : machine.begun.fetch.result = word :=
    (machine.begun.fetch_word faces.allowed).trans faces.found
  rw [word?_eq]
  cases machine.cycle_told with
  | idle rests => exact absurd ⟨faces.awake, faces.few, faces.allowed⟩ rests
  | faulted fault fails => rw [fails] at ends; cases ends
  | executed _ _ words => rw [words, found]; rfl

theorem word?_of_fault {fault : Fault} (fails : machine.cycle.result = .error fault) :
    machine.word? = none := by
  rw [word?_eq]
  cases machine.cycle_told with
  | idle _ ends => rw [fails] at ends; cases ends
  | faulted _ _ words => rw [words]; rfl
  | executed _ ends => rw [fails] at ends; cases ends

/-! ### Words of sixteen bits -/

/-- A number of sixteen bits. -/
def IsWord (number : Int) : Prop := 0 ≤ number ∧ number < 0x10000

theorem fetch_isWord (machine : Machine) : IsWord machine.fetch.result := by
  unfold fetch IsWord
  split
  · change 0 ≤ fallbackWord ∧ fallbackWord < 0x10000
    decide
  · dsimp only
    have high := UInt8.toNat_lt (machine.memory.read machine.counter).value
    have low := UInt8.toNat_lt
      ((machine.memory.read machine.counter).memory.read (machine.counter + 1)).value
    omega

theorem cycle_isWord (word : IsWord machine.last) : IsWord machine.cycle.machine.last := by
  cases machine.cycle_told with
  | idle _ _ _ last => rwa [last]
  | faulted _ _ _ last => rw [last]; exact fetch_isWord _
  | executed _ _ _ last => rw [last]; exact fetch_isWord _

/-- A machine whose accounts are in order and whose last word is one. -/
structure Traceable (machine : Machine) : Prop where
  accounts : machine.Accounted
  last : IsWord machine.last

theorem Traceable.runs_iff (traceable : machine.Traceable) :
    machine.Runs ↔ machine.halted = false ∧ isProgramAddress machine.counter = true :=
  ⟨fun runs => ⟨runs.awake, runs.allowed⟩,
    fun ⟨awake, allowed⟩ => ⟨awake, traceable.accounts.below awake, allowed⟩⟩

/-- A machine that begins anew has no last word yet. -/
theorem serve_last {request : Request} (renewing : request.renews = true) :
    (machine.serve request).machine.last = 0 := by
  cases request with
  | load program =>
      have accepted := Option.isNone_iff_eq_none.mp renewing
      simp only [serve, load, accepted]
      rfl
  | reset => rfl
  | press code => cases renewing
  | release code => cases renewing
  | cycle => cases renewing

theorem Traceable.serve (traceable : machine.Traceable) (request : Request) :
    (machine.serve request).machine.Traceable := by
  refine ⟨serve_accounted traceable.accounts request, ?_⟩
  by_cases renewing : request.renews = true
  · rw [serve_last renewing]
    exact ⟨by decide, by decide⟩
  · rcases serve_steady (Bool.not_eq_true _ ▸ renewing) with rfl | ⟨-, after, -⟩
    · exact cycle_isWord traceable.last
    · rw [after]
      exact traceable.last

end Machine

end ChipEight
