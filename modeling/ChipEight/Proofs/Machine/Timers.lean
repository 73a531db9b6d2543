/-
This file follows the two timers. A word sets each of them, and from then on it counts down with every
cycle that comes to the tick, the one that sets it among them, until it is zero. The tone sounds in the
cycles that tick with the sound timer still running.
-/

import ChipEight.Proofs.Machine.Accounts
import ChipEight.Proofs.Machine.Frame
import ChipEight.Proofs.Machine.Lockstep

namespace ChipEight

/-- The timers of a machine. -/
inductive Timer where
  | delay
  | sound
  deriving DecidableEq, Repr

/-- The words that set a timer. -/
def Timer.opcode : Timer → Opcode
  | delay => .closing 0xf 0x15
  | sound => .closing 0xf 0x18

namespace Machine

open Opcode

def timer (machine : Machine) : Timer → Int
  | .delay => machine.delay
  | .sound => machine.sound

/-- The next cycle comes to the tick: the machine is not halted, and its counter is in order. -/
def Ticks (machine : Machine) : Prop :=
  machine.halted = false ∧ isProgramAddress machine.counter = true

instance (machine : Machine) : Decidable machine.Ticks :=
  inferInstanceAs (Decidable (_ ∧ _))

/-- The cycles among some requests that come to the tick. -/
def ticks (machine : Machine) : List Request → Nat
  | [] => 0
  | request :: rest =>
      (if request = .cycle ∧ machine.Ticks then 1 else 0) +
        (machine.serve request).machine.ticks rest

/-- What a word leaves in a timer before the tick. -/
def charged (machine : Machine) (word : Int) (timer : Timer) : Int :=
  if timer.opcode.Covers word then machine.register (Instruction.xOf word) else machine.timer timer

/-- The requests leave a timer to its ticks: none makes the machine begin anew, and no word that is
executed sets the timer. -/
structure LeavesTimer (machine : Machine) (timer : Timer) (requests : List Request) : Prop where
  steady : ∀ request ∈ requests, request.renews = false
  unset : ∀ execution ∈ machine.executions requests, ¬ timer.opcode.Covers execution.1

variable {machine : Machine} {timer : Timer}

theorem perform_timer (machine : Machine) (word : Int) (timer : Timer) :
    (machine.perform word).machine.timer timer = machine.charged word timer := by
  unfold charged
  split
  case isTrue covers =>
    cases timer with
    | delay => rw [machine.perform_spelled (.setDelay covers)]; rfl
    | sound => rw [machine.perform_spelled (.setSound covers)]; rfl
  case isFalse other =>
    cases timer with
    | delay => exact (machine.perform_confined word).delay other
    | sound => exact (machine.perform_confined word).sound other

/-- A tick takes one from a timer that runs. -/
theorem tick_timer (machine : Machine) (timer : Timer) (positive : 0 ≤ machine.timer timer) :
    machine.tick.timer timer = max 0 (machine.timer timer - 1) := by
  cases timer with
  | delay =>
      change (if 0 < machine.delay then machine.delay - 1 else machine.delay) = _
      change 0 ≤ machine.delay at positive
      change _ = max 0 (machine.delay - 1)
      split <;> omega
  | sound =>
      change (if 0 < machine.sound then machine.sound - 1 else machine.sound) = _
      change 0 ≤ machine.sound at positive
      change _ = max 0 (machine.sound - 1)
      split <;> omega

theorem timer_isByte (valid : machine.WellFormed) (timer : Timer) :
    IsByte (machine.timer timer) := by
  cases timer with
  | delay => exact valid.delay
  | sound => exact valid.sound

theorem charged_isByte (valid : machine.WellFormed) (word : Int) (timer : Timer) :
    IsByte (machine.charged word timer) := by
  unfold charged
  split
  · exact valid.registers _
  · exact timer_isByte valid timer

/-- A cycle that does not come to the tick executes nothing, leaves the timers alone and stops the
tone. -/
theorem cycle_pauses (pauses : ¬ machine.Ticks) :
    machine.execution? = none ∧
      (∀ timer, machine.cycle.machine.timer timer = machine.timer timer) ∧
      machine.cycle.machine.tone = false := by
  by_cases stopped : machine.halted = true
  · have goes : machine.cycle = ⟨{ machine with tone := false }, .ok (), []⟩ := if_pos stopped
    unfold execution?
    rw [goes]
    exact ⟨rfl, fun timer => by cases timer <;> rfl, rfl⟩
  have awake : machine.halted = false := Bool.eq_false_iff.mpr stopped
  cases machine.cycle_course with
  | idle silent counter halted errors tally cycles after =>
      rw [after]
      exact ⟨silent, fun timer => by cases timer <;> rfl, rfl⟩
  | faulted _ _ allowed => exact absurd ⟨awake, allowed⟩ pauses
  | executed _ _ _ allowed => exact absurd ⟨awake, allowed⟩ pauses

/-- A cycle that comes to the tick executes a word, which may set the timers, and then both of them
tick. -/
theorem cycle_ticks (reached : Reachable machine) (ticking : machine.Ticks) :
    ∃ word status, machine.execution? = some (word, status) ∧
      (∀ timer, machine.cycle.machine.timer timer = max 0 (machine.charged word timer - 1)) ∧
      machine.cycle.machine.tone = decide (0 < machine.charged word .sound) := by
  obtain ⟨awake, allowed⟩ := ticking
  have few := reached.accounted.below awake
  have valid : machine.begun.WellFormed := { reached.wellFormed with }
  obtain ⟨-, -, ⟨status, ends⟩, -⟩ := performed_orderly valid allowed
  obtain ⟨execution, after⟩ := cycle_executes awake few allowed ends
  obtain ⟨memory, notes, -, -, -, loads⟩ := machine.begun.loaded_eq allowed
  have charges (timer : Timer) : machine.begun.performed.machine.timer timer =
      machine.charged machine.begun.fetch.result timer := by
    refine (machine.begun.loaded.perform_timer machine.begun.fetch.result timer).trans ?_
    rw [loads]
    cases timer <;> rfl
  refine ⟨_, status, execution, ?_, ?_⟩
  · intro timer
    have positive : 0 ≤ machine.begun.performed.machine.timer timer := by
      rw [charges]
      exact (charged_isByte reached.wellFormed _ timer).1
    have ticked := machine.begun.performed.machine.tick_timer timer positive
    rw [charges] at ticked
    rw [after, checkErrors_machine, ← ticked]
    cases timer <;> rfl
  · rw [after, checkErrors_machine]
    change decide (0 < machine.begun.performed.machine.timer .sound) = _
    rw [charges]

/-! ### Runs -/

theorem ticks_cons (machine : Machine) (request : Request) (rest : List Request) :
    machine.ticks (request :: rest) =
      (if request = .cycle ∧ machine.Ticks then 1 else 0) +
        (machine.serve request).machine.ticks rest := rfl

theorem LeavesTimer.append_left {first second : List Request}
    (leaves : machine.LeavesTimer timer (first ++ second)) : machine.LeavesTimer timer first where
  steady request member := leaves.steady request (List.mem_append_left _ member)
  unset execution member := by
    apply leaves.unset
    rw [executions_append]
    exact List.mem_append_left _ member

theorem LeavesTimer.append_right {first second : List Request}
    (leaves : machine.LeavesTimer timer (first ++ second)) :
    (machine.serveAll first).LeavesTimer timer second where
  steady request member := leaves.steady request (List.mem_append_right _ member)
  unset execution member := by
    apply leaves.unset
    rw [executions_append]
    exact List.mem_append_right _ member

/-- The word of the next cycle does not set a timer that is left to its ticks. -/
theorem LeavesTimer.charged {rest : List Request}
    (leaves : machine.LeavesTimer timer (.cycle :: rest)) {word : Int} {status : Status}
    (execution : machine.execution? = some (word, status)) :
    machine.charged word timer = machine.timer timer := by
  have other : ¬ timer.opcode.Covers word := by
    apply leaves.unset (word, status)
    change (word, status) ∈ machine.execution?.toList ++ _
    rw [execution]
    exact List.mem_cons_self
  exact if_neg other

/-- A request takes one from a timer that is left to its ticks if it comes to the tick. -/
theorem serve_timer (reached : Reachable machine) {request : Request} {rest : List Request}
    (leaves : machine.LeavesTimer timer (request :: rest)) :
    (machine.serve request).machine.timer timer =
      max 0 (machine.timer timer - if request = .cycle ∧ machine.Ticks then 1 else 0) := by
  have positive := (timer_isByte reached.wellFormed timer).1
  have steady := leaves.steady request List.mem_cons_self
  cases request with
  | cycle =>
      change machine.cycle.machine.timer timer = _
      by_cases ticking : machine.Ticks
      · obtain ⟨word, status, execution, timers, -⟩ := cycle_ticks reached ticking
        rw [timers, leaves.charged execution, if_pos ⟨rfl, ticking⟩]
      · obtain ⟨-, timers, -⟩ := cycle_pauses ticking
        rw [timers, if_neg (fun both => ticking both.2)]
        omega
  | load program =>
      change (machine.load program).machine.timer timer = _
      rw [machine.load_refused steady, if_neg (fun both => nomatch both.1)]
      omega
  | reset => cases steady
  | press code =>
      have same : (machine.press code).timer timer = machine.timer timer := by
        cases timer <;> rfl
      change (machine.press code).timer timer = _
      rw [same, if_neg (fun both => nomatch both.1)]
      omega
  | release code =>
      have same : (machine.release code).timer timer = machine.timer timer := by
        cases timer <;> rfl
      change (machine.release code).timer timer = _
      rw [same, if_neg (fun both => nomatch both.1)]
      omega

/-- A timer that is left to its ticks counts them down to zero. -/
theorem serveAll_timer (reached : Reachable machine) {requests : List Request}
    (leaves : machine.LeavesTimer timer requests) :
    (machine.serveAll requests).timer timer =
      max 0 (machine.timer timer - (machine.ticks requests : Int)) := by
  induction requests generalizing machine with
  | nil =>
      have positive := (timer_isByte reached.wellFormed timer).1
      change machine.timer timer = max 0 (machine.timer timer - (0 : Nat))
      omega
  | cons request rest ih =>
      have first := serve_timer reached leaves
      have later := ih (reached.serve request) (@LeavesTimer.append_right _ _ [request] rest leaves)
      rw [serveAll_cons, later, first, ticks_cons]
      split <;> omega

theorem ticks_cycle (ticking : machine.Ticks) (rest : List Request) :
    machine.ticks (.cycle :: rest) = 1 + machine.cycle.machine.ticks rest := by
  rw [ticks_cons, if_pos ⟨rfl, ticking⟩]
  rfl

/-- A machine that executes a word comes to the tick. -/
theorem ticks_of_execution {word : Int} {status : Status}
    (execution : machine.execution? = some (word, status)) : machine.Ticks := by
  obtain ⟨faces, -⟩ := faces_of_execution execution
  exact ⟨faces.awake, faces.allowed⟩

/-- A timer that a word sets and that is left to its ticks since then, counted down from the value of
the register. -/
theorem set_timer (reached : Reachable machine) {word : Int} {status : Status}
    (execution : machine.execution? = some (word, status)) (sets : timer.opcode.Covers word)
    {later : List Request} (leaves : machine.cycle.machine.LeavesTimer timer later) :
    (machine.cycle.machine.serveAll later).timer timer =
      max 0 (machine.register (Instruction.xOf word) - (machine.ticks (.cycle :: later) : Int)) := by
  have ticking := ticks_of_execution execution
  obtain ⟨other, ends, executes, timers, -⟩ := cycle_ticks reached ticking
  rw [executes] at execution
  cases execution
  have value : machine.charged word timer = machine.register (Instruction.xOf word) := if_pos sets
  refine (serveAll_timer (reached.serve .cycle) leaves).trans ?_
  change max 0 (machine.cycle.machine.timer timer - _) = _
  rw [timers, value, ticks_cycle ticking]
  change max 0 (_ - (machine.cycle.machine.ticks later : Int)) = _
  omega

/-- From the word that sets the sound timer on, as long as none sets it again, the tone sounds in the
cycles that come to the tick with fewer ticks before them than the value that was set. -/
theorem tone_after_set (reached : Reachable machine) {word : Int} {status : Status}
    (execution : machine.execution? = some (word, status)) (sets : Timer.sound.opcode.Covers word)
    {later : List Request} (leaves : machine.cycle.machine.LeavesTimer .sound later)
    {before after : List Request} (split : .cycle :: later = before ++ .cycle :: after) :
    (machine.serveAll before).cycle.machine.tone = true ↔
      (machine.serveAll before).Ticks ∧
        (machine.ticks before : Int) < machine.register (Instruction.xOf word) := by
  by_cases ticking : (machine.serveAll before).Ticks
  case neg =>
    rw [(cycle_pauses ticking).2.2]
    exact ⟨nofun, fun both => absurd both.1 ticking⟩
  obtain ⟨other, ends, executes, -, tone⟩ := cycle_ticks (reached.serveAll before) ticking
  have rings : (machine.serveAll before).charged other .sound =
      max 0 (machine.register (Instruction.xOf word) - (machine.ticks before : Int)) := by
    cases before with
    | nil =>
        rw [serveAll_nil] at executes ⊢
        rw [executes] at execution
        cases execution
        have value : machine.charged word .sound = machine.register (Instruction.xOf word) :=
          if_pos sets
        have positive := (reached.wellFormed.registers (Instruction.xOf word)).1
        rw [value]
        change _ = max 0 (_ - ((0 : Nat) : Int))
        omega
    | cons request between =>
        obtain ⟨rfl, rfl⟩ := List.cons.inj split
        rw [← set_timer reached execution sets leaves.append_left]
        exact leaves.append_right.charged executes
  rw [tone, rings, decide_eq_true_iff, and_iff_right ticking]
  omega

/-- A word that reads the delay timer puts it into its register. -/
theorem execution_readDelay {word : Int} {status : Status}
    (execution : machine.execution? = some (word, status))
    (reads : (closing 0xf 0x07).Covers word) :
    machine.cycle.machine.register (Instruction.xOf word) = machine.timer .delay := by
  obtain ⟨faces, -⟩ := faces_of_execution execution
  obtain ⟨memory, -, goes⟩ := cycle_word faces.awake faces.few faces.allowed faces.found
  rw [perform_spelled _ (.readDelay reads)] at goes
  obtain ⟨-, after⟩ := goes .applied rfl
  rw [after, checkErrors_machine]
  change (machine.setRegister (Instruction.xOf word) machine.delay).register _ = machine.delay
  rw [register_setRegister, if_pos rfl]

/-- On every machine that a host gets from a new one both timers are bytes. Where a cycle executes a word
that sets the sound timer, and none does so again and the machine does not begin anew, the tone sounds
in as many cycles that come to the tick as the value says, that cycle first, and in no other cycle.
Where one sets the delay timer in the same way, a word that reads it finds the value less the ticks
since then, and zero when they are more. -/
theorem timers_count_down (display : Display) (random : RandomBytes) (wide : 0 < display.width)
    (high : 0 < display.height) (past : List Request) :
    let machine := (new display random).serveAll past
    (∀ timer, IsByte (machine.timer timer)) ∧
    ∀ word status later, machine.execution? = some (word, status) →
      (Timer.sound.opcode.Covers word → machine.cycle.machine.LeavesTimer .sound later →
        ∀ before after, .cycle :: later = before ++ .cycle :: after →
          let now := machine.serveAll before
          (now.cycle.machine.tone = true ↔
            now.Ticks ∧ (machine.ticks before : Int) < machine.register (Instruction.xOf word))) ∧
      (Timer.delay.opcode.Covers word → machine.cycle.machine.LeavesTimer .delay later →
        ∀ before after other ends, later = before ++ .cycle :: after →
          let now := machine.serveAll (.cycle :: before)
          now.execution? = some (other, ends) → (closing 0xf 0x07).Covers other →
            let elapsed := machine.ticks (.cycle :: before)
            1 ≤ elapsed ∧ now.cycle.machine.register (Instruction.xOf other) =
              max 0 (machine.register (Instruction.xOf word) - (elapsed : Int))) := by
  intro machine
  have reached : Reachable machine := (Reachable.new display random wide high).serveAll past
  refine ⟨timer_isByte reached.wellFormed, ?_⟩
  intro word status later execution
  refine ⟨?_, ?_⟩
  · intro sets leaves before after split now
    exact tone_after_set reached execution sets leaves split
  · intro sets leaves before after other ends split now executes reads elapsed
    subst split
    refine ⟨?_, ?_⟩
    · change 1 ≤ machine.ticks (.cycle :: before)
      rw [ticks_cycle (ticks_of_execution execution)]
      exact Nat.le_add_right 1 _
    · rw [execution_readDelay executes reads]
      exact set_timer reached execution sets leaves.append_left

theorem put_plain (x : Register) (value : Fin 256) : Plain (.put x value) :=
  fun machine => ⟨machine.setRegister x value.val, rfl, rfl, rfl, rfl, rfl⟩

theorem setDelay_plain (x : Register) : Plain (.setDelay x) :=
  fun machine => ⟨{ machine with delay := machine.register x }, rfl, rfl, rfl, rfl, rfl⟩

theorem setSound_plain (x : Register) : Plain (.setSound x) :=
  fun machine => ⟨{ machine with sound := machine.register x }, rfl, rfl, rfl, rfl, rfl⟩

theorem readDelay_plain (x : Register) : Plain (.readDelay x) :=
  fun machine => ⟨machine.setRegister x machine.delay, rfl, rfl, rfl, rfl, rfl⟩

/-- What a host asks for to run a program that puts two into a register and charges a timer from it, up
to the word that charges. -/
def charging (low : UInt8) (next : List UInt8) : List Request :=
  [.load (some ([0x60, 0x02, 0xf0, low] ++ next)), .cycle]

theorem charging_faces (machine : Machine) (low high last : UInt8) :
    let before := machine.serveAll (charging low [high, last])
    before.Faces ((0xf000 + low.toNat : Nat) : Int) ∧ before.counter = 0x202 ∧
      before.register 0 = 2 ∧ wordAt before.memory 0x204 = 256 * high.toNat + last.toNat := by
  intro before
  let program : List UInt8 := [0x60, 0x02, 0xf0, low] ++ [high, last]
  have fits : program.length ≤ Memory.largestProgram := show 6 ≤ 3584 by decide
  have faces : (machine.load (some program)).machine.Faces 0x6002 :=
    @load_faces machine program (show 1 < 6 by decide) fits
  have second : wordAt (machine.load (some program)).machine.memory 0x202 =
      ((0xf000 + low.toNat : Nat) : Int) :=
    @wordAt_withProgram machine.reset.memory program fits 2 (show 3 < 6 by decide)
  have third : wordAt (machine.load (some program)).machine.memory 0x204 =
      256 * high.toNat + last.toNat :=
    @wordAt_withProgram machine.reset.memory program fits 4 (show 5 < 6 by decide)
  obtain ⟨-, next, place, memory, same, after⟩ :=
    faces.pass (.put (by decide)) (put_plain _ _) rfl
  have goes : before = (machine.load (some program)).machine.cycle.machine :=
    machine.serveAll_load_cycle (some program)
  rw [goes]
  refine ⟨?_, place, ?_, ?_⟩
  · rw [← second]
    exact next
  · rw [after]
    rfl
  · rw [after]
    exact (wordAt_congr same _).trans third

/-- The machine charges its timer and then comes to the next word. -/
theorem charging_passes (machine : Machine) {low : UInt8} {timer : Timer}
    (charges : timer.opcode.Covers ((0xf000 + low.toNat : Nat) : Int)) (high last : UInt8) :
    let before := machine.serveAll (charging low [high, last])
    before.execution? = some (((0xf000 + low.toNat : Nat) : Int), .applied) ∧
      before.cycle.machine.Faces (256 * high.toNat + last.toNat) ∧
      before.cycle.machine.counter = 0x204 := by
  obtain ⟨faces, place, -, third⟩ := machine.charging_faces low high last
  generalize machine.serveAll (charging low [high, last]) = before at faces place third ⊢
  have room : isProgramAddress (before.counter + 2) = true := by
    rw [place]
    rfl
  have passes : before.execution? = some (((0xf000 + low.toNat : Nat) : Int), .applied) ∧
      before.cycle.machine.Faces (wordAt before.memory (before.counter + 2)) ∧
      before.cycle.machine.counter = before.counter + 2 := by
    cases timer with
    | delay =>
        obtain ⟨executes, later, moves, -⟩ := faces.pass (.setDelay charges) (setDelay_plain _) room
        exact ⟨executes, later, moves⟩
    | sound =>
        obtain ⟨executes, later, moves, -⟩ := faces.pass (.setSound charges) (setSound_plain _) room
        exact ⟨executes, later, moves⟩
  obtain ⟨executes, later, behind⟩ := passes
  rw [place] at later behind
  refine ⟨executes, ?_, behind⟩
  rw [← third]
  exact later

/-- A word that reads the delay timer sets neither timer. -/
theorem reading_leaves {machine : Machine} (faces : machine.Faces 0xf107)
    (place : machine.counter = 0x204) :
    machine.execution? = some (0xf107, .applied) ∧
      ∀ timer, machine.LeavesTimer timer [.cycle] := by
  obtain ⟨reads, -⟩ := faces.pass (.readDelay (by decide)) (readDelay_plain _) (by rw [place]; rfl)
  refine ⟨reads, fun timer => ⟨by decide, ?_⟩⟩
  intro execution member
  change execution ∈ machine.execution?.toList ++ [] at member
  rw [reads] at member
  rw [List.mem_singleton.mp member]
  cases timer <;> decide

/-- A timer that is set to two: the tone sounds in two cycles, and the delay timer is read as one in the
cycle after. -/
theorem timers_count_down_two :
    let sounding := (new (.blank 8 4) (.ofSeed 12345)).serveAll (charging 0x18 [0xf1, 0x07])
    let delaying := (new (.blank 8 4) (.ofSeed 12345)).serveAll (charging 0x15 [0xf1, 0x07])
    sounding.cycle.machine.tone = true ∧ sounding.cycle.machine.cycle.machine.tone = true ∧
      delaying.cycle.machine.cycle.machine.register 1 = 1 := by
  have sound : Timer.sound.opcode.Covers ((0xf000 + (0x18 : UInt8).toNat : Nat) : Int) := by decide
  have delay : Timer.delay.opcode.Covers ((0xf000 + (0x15 : UInt8).toNat : Nat) : Int) := by decide
  let start := new (.blank 8 4) (.ofSeed 12345)
  obtain ⟨-, -, two, -⟩ := start.charging_faces 0x18 0xf1 0x07
  obtain ⟨-, -, value, -⟩ := start.charging_faces 0x15 0xf1 0x07
  obtain ⟨charges, next, behind⟩ := start.charging_passes sound 0xf1 0x07
  obtain ⟨sets, later, after⟩ := start.charging_passes delay 0xf1 0x07
  obtain ⟨-, sounds⟩ := timers_count_down (.blank 8 4) (.ofSeed 12345) (by decide) (by decide)
    (charging 0x18 [0xf1, 0x07])
  obtain ⟨-, delays⟩ := timers_count_down (.blank 8 4) (.ofSeed 12345) (by decide) (by decide)
    (charging 0x15 [0xf1, 0x07])
  change ∀ word status later, (start.serveAll _).execution? = some (word, status) → _ at sounds delays
  generalize start.serveAll (charging 0x18 [0xf1, 0x07]) = sounding at *
  generalize start.serveAll (charging 0x15 [0xf1, 0x07]) = delaying at *
  obtain ⟨-, spared⟩ := reading_leaves next behind
  obtain ⟨reads, kept⟩ := reading_leaves later after
  have rings := (sounds _ _ [.cycle] charges).1 sound (spared .sound)
  have first := rings [] [.cycle] rfl
  have second := rings [.cycle] [] rfl
  have last := (delays _ _ [.cycle] sets).2 delay (kept .delay) [] [] 0xf107 .applied rfl
  dsimp only at first second last
  rw [serveAll_nil] at first
  rw [serveAll_cycle, ticks_cycle (ticks_of_execution charges)] at second
  rw [serveAll_cycle, ticks_cycle (ticks_of_execution sets)] at last
  refine ⟨first.mpr ⟨ticks_of_execution charges, ?_⟩,
    second.mpr ⟨⟨next.awake, next.allowed⟩, ?_⟩, ?_⟩
  · change (0 : Int) < sounding.register 0
    rw [two]
    decide
  · change (1 : Int) < sounding.register 0
    rw [two]
    decide
  · have read := (last reads (by decide)).2
    change delaying.cycle.machine.cycle.machine.register 1 = max 0 (delaying.register 0 - 1) at read
    rw [value] at read
    exact read

end Machine

end ChipEight
