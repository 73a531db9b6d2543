/-
This file follows the random bytes through the runs of a machine. Each word that asks for one takes the
next byte of the seed, and nothing else takes any: not even a reset or another program begins the bytes
anew.
-/

import ChipEight.Proofs.Machine.Frame
import ChipEight.Proofs.Machine.Lockstep
import ChipEight.Proofs.RandomBytes.Stream

namespace ChipEight.Machine

open Opcode

/-- The words that ask for a random byte among those that are executed during some requests. -/
def draws (machine : Machine) (requests : List Request) : Nat :=
  (machine.executions requests).countP fun execution => decide ((family 0xc).Covers execution.1)

variable {machine : Machine} {word : Int}

theorem draws_append (machine : Machine) (first second : List Request) :
    machine.draws (first ++ second) =
      machine.draws first + (machine.serveAll first).draws second := by
  unfold draws
  rw [executions_append, List.countP_append]

theorem draws_cycle (machine : Machine) :
    machine.draws [.cycle] = machine.execution?.toList.countP
      fun execution => decide ((family 0xc).Covers execution.1) :=
  congrArg (List.countP _) (List.append_nil _)

/-- Only a cycle executes words. -/
theorem draws_other (machine : Machine) {request : Request} (other : request ≠ .cycle) :
    machine.draws [request] = 0 := by
  unfold draws executions executions
  rw [if_neg other]
  rfl

/-- A cycle that executes no word that asks for a byte. -/
theorem draws_settled (settled : ∀ execution, machine.execution? = some execution →
    ¬ (family 0xc).Covers execution.1) : machine.draws [.cycle] = 0 := by
  rw [draws_cycle, List.countP_eq_zero]
  intro execution member
  simpa using settled execution (Option.mem_toList.mp member)

/-- A word takes one byte if it asks for one, and else none. -/
theorem perform_takes (machine : Machine) (word : Int) :
    (machine.perform word).machine.random =
      machine.random.drawn (if (family 0xc).Covers word then 1 else 0) := by
  split
  case isTrue asks =>
    rw [machine.perform_spelled (.random asks)]
    rfl
  case isFalse other => exact (machine.perform_confined word).random other

theorem loaded_random (machine : Machine) : machine.loaded.random = machine.random := by
  unfold loaded fetch
  split <;> rfl

theorem cycle_takes (machine : Machine) :
    machine.cycle.machine.random = machine.random.drawn (machine.draws [.cycle]) := by
  have taken := machine.begun.loaded.perform_takes machine.begun.fetch.result
  rw [loaded_random] at taken
  rw [draws_cycle]
  cases machine.cycle_course with
  | idle silent _ _ _ _ _ after =>
      rw [silent, after]
      rfl
  | faulted silent fault _ ends after =>
      have other : ¬ (family 0xc).Covers machine.begun.fetch.result := by
        intro asks
        exact nomatch ends.symm.trans (machine.begun.loaded.perform_random asks)
      rw [if_neg other] at taken
      rw [silent, after]
      exact taken
  | executed status _ _ _ _ execution after =>
      rw [execution, after, checkErrors_machine]
      refine taken.trans (congrArg machine.random.drawn ?_)
      simp [List.countP_cons]

theorem reset_random (machine : Machine) : machine.reset.random = machine.random := by
  simp only [reset, fresh]

theorem load_random (machine : Machine) (program : Option (List UInt8)) :
    (machine.load program).machine.random = machine.random := by
  cases renews : (Request.load program).renews with
  | true => simp only [machine.load_taken renews, reset_random]
  | false => rw [machine.load_refused renews]

theorem serve_takes (machine : Machine) (request : Request) :
    (machine.serve request).machine.random = machine.random.drawn (machine.draws [request]) := by
  by_cases other : request = .cycle
  · rw [other]
    exact machine.cycle_takes
  · rw [draws_other machine other]
    change (machine.serve request).machine.random = machine.random
    cases request with
    | load program => exact machine.load_random program
    | reset => exact machine.reset_random
    | press | release => rfl
    | cycle => exact absurd rfl other

/-- As many bytes are taken as words were executed that ask for one. -/
theorem serveAll_takes (machine : Machine) (requests : List Request) :
    (machine.serveAll requests).random = machine.random.drawn (machine.draws requests) := by
  induction requests generalizing machine with
  | nil => rfl
  | cons request rest ih =>
      rw [serveAll_cons, ih, serve_takes, ← RandomBytes.drawn_add]
      exact congrArg machine.random.drawn (machine.draws_append [request] rest).symm

/-- A word that asks for a random byte puts it into its register under its mask, and leaves the other
registers. -/
theorem execution_random {status : Status} (execution : machine.execution? = some (word, status))
    (asks : (family 0xc).Covers word) :
    status = .applied ∧ ∀ place, machine.cycle.machine.register place =
      if Instruction.xOf word = place then
        ((machine.random.next.1.toNat &&& (Instruction.lowByte word).val : Nat) : Int)
      else machine.register place := by
  obtain ⟨faces, -⟩ := faces_of_execution execution
  obtain ⟨memory, -, goes⟩ := cycle_word faces.awake faces.few faces.allowed faces.found
  rw [perform_spelled _ (.random asks)] at goes
  obtain ⟨executes, after⟩ := goes .applied rfl
  rw [execution] at executes
  cases executes
  refine ⟨rfl, ?_⟩
  intro place
  rw [after, checkErrors_machine]
  exact register_setRegister machine (Instruction.xOf word) place _

/-- A machine that faces a word that asks for a random byte executes it. -/
theorem Faces.asks (faces : machine.Faces word) (asks : (family 0xc).Covers word) :
    machine.execution? = some (word, .applied) := by
  obtain ⟨memory, -, goes⟩ := cycle_word faces.awake faces.few faces.allowed faces.found
  exact (goes .applied (perform_random _ asks)).1

/-- Whatever a host asks of a new machine: the bytes that are still to come are those of the seed after as
many as words were executed that ask for one. The next such word is applied, and puts the first of
them into its register under its mask. A request that executes no such word leaves the generator as it
is. -/
theorem random_bytes_in_order (seed : Nat) (display : Display) (requests : List Request) :
    let start := new display (.ofSeed seed)
    let machine := start.serveAll requests
    let taken := start.draws requests
    (∀ more, (machine.random.drawn more).next.1 =
      (RandomBytes.ofSeed seed).byteAt (taken + more)) ∧
    (∀ word status, machine.execution? = some (word, status) → (family 0xc).Covers word →
      status = .applied ∧ ∀ place, machine.cycle.machine.register place =
        if Instruction.xOf word = place then
          ((((RandomBytes.ofSeed seed).byteAt taken).toNat &&&
            (Instruction.lowByte word).val : Nat) : Int)
        else machine.register place) ∧
    ∀ request, (request = .cycle → ∀ execution, machine.execution? = some execution →
      ¬ (family 0xc).Covers execution.1) → (machine.serve request).machine.random = machine.random := by
  intro start machine taken
  have source : machine.random = (RandomBytes.ofSeed seed).drawn taken :=
    start.serveAll_takes requests
  have coming (more : Nat) : (machine.random.drawn more).next.1 =
      (RandomBytes.ofSeed seed).byteAt (taken + more) := by
    rw [source, ← RandomBytes.drawn_add]
    exact RandomBytes.next_drawn (RandomBytes.ofSeed_isWhole seed) (taken + more)
  refine ⟨coming, ?_, ?_⟩
  · intro word status execution asks
    have stored := execution_random execution asks
    rw [show machine.random.next.1 = _ from coming 0] at stored
    exact stored
  · intro request other
    have none : machine.draws [request] = 0 := by
      by_cases cycles : request = .cycle
      · rw [cycles]
        exact draws_settled (other cycles)
      · exact machine.draws_other cycles
    rw [serve_takes, none]
    rfl

/-- What a host asks for to run a program that takes a byte, and then to load another that takes one. -/
def reloading : List Request :=
  [.load (some [0xc3, 0xff])] ++ [.cycle] ++ [.reset] ++ [.load (some [0xc3, 0x0f])]

theorem serveAll_load (machine : Machine) (program : Option (List UInt8)) :
    machine.serveAll [.load program] = (machine.load program).machine := rfl

theorem reloading_draws (machine : Machine) :
    machine.draws reloading = 1 ∧
      (machine.serveAll reloading).execution? = some (0xc30f, .applied) := by
  have first : (machine.load (some [0xc3, 0xff])).machine.execution? = some (0xc3ff, .applied) :=
    (@load_faces machine [0xc3, 0xff] (by decide) (by decide)).asks (by decide)
  have loads (before : Machine) (program : Option (List UInt8)) : before.draws [.load program] = 0 :=
    before.draws_other (show Request.load program ≠ .cycle from nofun)
  have resets (before : Machine) : before.draws [.reset] = 0 :=
    before.draws_other (show Request.reset ≠ .cycle from nofun)
  unfold reloading
  refine ⟨?_, ?_⟩
  · rw [draws_append, draws_append, draws_append, loads, loads, resets, serveAll_load, draws_cycle,
      first]
    rfl
  · rw [serveAll_append, serveAll_load]
    exact (load_faces _ (by decide) (by decide)).asks (by decide)

/-- The second byte of a seed goes to a program that is loaded after another one has taken the first. -/
theorem random_bytes_in_order_reload :
    let start := new (.blank 8 4) (.ofSeed 12345)
    let machine := start.serveAll reloading
    start.draws reloading = 1 ∧ (family 0xc).Covers 0xc30f ∧
      machine.execution? = some (0xc30f, .applied) ∧ machine.cycle.machine.register 3 = 0x0a := by
  intro start machine
  have byte : (RandomBytes.ofSeed 12345).byteAt 1 = 0x3a := by decide +kernel
  obtain ⟨taken, execution⟩ := start.reloading_draws
  obtain ⟨-, stored, -⟩ := random_bytes_in_order 12345 (.blank 8 4) reloading
  have value := (stored 0xc30f .applied execution (by decide)).2 3
  rw [if_pos (by decide), taken, byte] at value
  exact ⟨taken, by decide, execution, value⟩

end ChipEight.Machine
