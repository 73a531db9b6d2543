/-
This file compares the two ways in which a session that is started runs its cycles: one by one, and as a
frame. They agree up to the cycle that halts the machine. From there on the frame leaves everything
alone, also a tone, where each further cycle stops the tone and is recorded.
-/

import ChipEight.Proofs.Machine.Timers
import ChipEight.Proofs.Recorder.Steady
import ChipEight.Proofs.Session.Frames
import ChipEight.Proofs.Session.Redraw

namespace ChipEight.Session

/-- After an action without a fault the machine is not halted. -/
def Turnout.GoesOn (turnout : Turnout Unit) : Prop :=
  turnout.result = .ok () ∧ turnout.session.machine.halted = false

/-- The session after its state is recorded some times over. -/
def recordedTimes (session : Session) (count : Nat) : Option Recorder × Except Fault Unit :=
  match session.recorder with
  | none => (none, .ok ())
  | some recorder =>
      let (written, result) := recorder.recordAll (List.replicate count (snapshot session.machine))
      (some written, result)

variable {session : Session}

theorem cycleTimes_succ (session : Session) (count : Nat) :
    session.cycleTimes (count + 1) =
      session.cycle.andThen fun next _ => next.cycleTimes count := rfl

/-! ### A machine that is halted -/

/-- A cycle of a halted machine stops its tone and is recorded. -/
theorem advance_halted (stopped : session.machine.halted = true) :
    session.advance =
      let silent := { session with machine := { session.machine with tone := false } }
      ⟨silent.recorded.1, silent.recorded.2, []⟩ := by
  have goes : session.machine.cycle = ⟨{ session.machine with tone := false }, .ok (), []⟩ :=
    if_pos stopped
  unfold advance
  rw [goes]
  rfl

/-- Cycles of a halted machine stop its tone, and record one snapshot as many times. -/
theorem cycleTimes_halted (started : session.started = true)
    (stopped : session.machine.halted = true) (count : Nat) :
    session.cycleTimes count =
      ⟨{ session with
          machine := { session.machine with tone := session.machine.tone && count == 0 }
          recorder := (session.recordedTimes count).1 },
        (session.recordedTimes count).2, []⟩ := by
  induction count generalizing session with
  | zero =>
      obtain ⟨settings, machine, cyclesPerFrame, keymap, runs, frames, recorder⟩ := session
      cases recorder <;> simp [cycleTimes, recordedTimes, Recorder.recordAll]
  | succ count ih =>
      have goes : session.cycle = session.advance := if_pos started
      rw [cycleTimes_succ, goes, advance_halted stopped]
      obtain ⟨settings, machine, cyclesPerFrame, keymap, runs, frames, recorder⟩ := session
      have later (kept : Option Recorder) := @ih ⟨settings, { machine with tone := false },
        cyclesPerFrame, keymap, runs, frames, kept⟩ started stopped
      cases recorder with
      | none => simp [recorded, Turnout.andThen, later, recordedTimes]
      | some recorder =>
          have same : snapshot { machine with tone := false } = snapshot machine := rfl
          cases taken : recorder.record (snapshot machine) with
          | mk next result =>
              cases result <;>
                simp [recorded, Turnout.andThen, recordedTimes, List.replicate_succ,
                  Recorder.recordAll, same, taken, later]

/-! ### Up to the cycle that halts the machine -/

/-- A frame ends after so many of its cycles, with the first that fails or leaves the machine halted. The
cycles one by one run the same ones, and go on if that one has not failed. -/
structure EndsAfter (session : Session) (count run : Nat) : Prop where
  within : run ≤ count
  lasts : ∀ earlier < run, (session.cycleTimes earlier).GoesOn
  halts : run < count → ¬ (session.cycleTimes run).GoesOn
  frame : session.advanceMany count = session.cycleTimes run
  split : session.cycleTimes count =
    (session.cycleTimes run).andThen fun next _ => next.cycleTimes (count - run)

theorem EndsAfter.halted {count : Nat} (stopped : session.machine.halted = true) :
    session.EndsAfter (count + 1) 0 where
  within := Nat.zero_le _
  lasts := nofun
  halts := fun _ lasts => absurd (stopped.symm.trans lasts.2) Bool.false_ne_true.symm
  frame := advanceMany_halted stopped _
  split := (Turnout.done_andThen session () fun next _ => next.cycleTimes (count + 1)).symm

section

variable {count : Nat} (started : session.started = true) (awake : session.machine.halted = false)

include started awake

theorem advanceMany_awake :
    session.advanceMany (count + 1) = session.cycle.andThen fun next _ => next.advanceMany count := by
  have goes : session.cycle = session.advance := if_pos started
  rw [goes, advanceMany_succ, awake]
  rfl

theorem EndsAfter.failed {fault : Fault} (fails : session.cycle.result = .error fault) :
    session.EndsAfter (count + 1) 1 where
  within := Nat.succ_le_succ (Nat.zero_le _)
  lasts := by
    intro earlier before
    rw [Nat.lt_one_iff.mp before]
    exact ⟨rfl, awake⟩
  halts := by
    rintro - ⟨fine, -⟩
    rw [cycleTimes_succ, Turnout.andThen_error fails] at fine
    cases fine
  frame := by
    rw [advanceMany_awake started awake, cycleTimes_succ, Turnout.andThen_error fails,
      Turnout.andThen_error fails]
  split := by
    rw [cycleTimes_succ, cycleTimes_succ, Turnout.andThen_assoc, Turnout.andThen_error fails,
      Turnout.andThen_error fails]

/-- A cycle that does not fail comes before those that are left. -/
theorem EndsAfter.later {run : Nat} (fine : session.cycle.result = .ok ())
    (ends : session.cycle.session.EndsAfter count run) : session.EndsAfter (count + 1) (run + 1) := by
  have later (run : Nat) : (session.cycleTimes (run + 1)).GoesOn ↔
      (session.cycle.session.cycleTimes run).GoesOn := by
    rw [cycleTimes_succ, Turnout.andThen_ok fine]
    exact Iff.rfl
  refine ⟨Nat.succ_le_succ ends.within, ?_, ?_, ?_, ?_⟩
  · intro earlier before
    cases earlier with
    | zero => exact ⟨rfl, awake⟩
    | succ earlier => exact (later earlier).mpr (ends.lasts earlier (Nat.lt_of_succ_lt_succ before))
  · intro more
    rw [later]
    exact ends.halts (Nat.lt_of_succ_lt_succ more)
  · rw [advanceMany_awake started awake, cycleTimes_succ]
    simp only [Turnout.andThen, ends.frame]
  · rw [cycleTimes_succ, cycleTimes_succ, Turnout.andThen_assoc, Nat.succ_sub_succ]
    simp only [Turnout.andThen, ends.split]

end

theorem cycleTimes_split (started : session.started = true) (count : Nat) :
    ∃ run, session.EndsAfter count run := by
  induction count generalizing session with
  | zero =>
      refine ⟨0, Nat.le_refl 0, nofun, nofun, rfl, ?_⟩
      exact (Turnout.done_andThen session () fun next _ => next.cycleTimes 0).symm
  | succ count ih =>
      by_cases stopped : session.machine.halted = true
      · exact ⟨0, .halted stopped⟩
      have awake : session.machine.halted = false := Bool.eq_false_iff.mpr stopped
      have goes : session.cycle = session.advance := if_pos started
      cases ends : session.cycle.result with
      | error fault => exact ⟨1, .failed started awake ends⟩
      | ok value =>
          have still : session.cycle.session.started = true := by
            rw [goes]
            exact session.advance_keeps.2.trans started
          obtain ⟨run, rest⟩ := ih still
          exact ⟨run + 1, rest.later started awake ends⟩

theorem cycleTimes_started (started : session.started = true) (count : Nat) :
    (session.cycleTimes count).session.started = true := by
  induction count generalizing session with
  | zero => exact started
  | succ count ih =>
      have goes : session.cycle = session.advance := if_pos started
      have kept := session.advance_keeps.2.trans started
      rw [cycleTimes_succ, goes]
      unfold Turnout.andThen
      split
      · exact kept
      · exact ih kept

/-! ### Sessions without faults -/

/-- A session whose machine is well formed and whose recorder, if it has one, is steady. -/
structure Sound (session : Session) : Prop where
  machine : session.machine.WellFormed
  recorder : ∀ recorder, session.recorder = some recorder → recorder.Steady

/-- A cycle of a sound session ends without a fault and leaves it sound. -/
theorem Sound.advance (sound : session.Sound) :
    session.advance.result = .ok () ∧ session.advance.session.Sound := by
  obtain ⟨valid, -, ⟨value, returns⟩, -⟩ := Machine.cycle_orderly sound.machine
  obtain ⟨recorder, recorded, steady⟩ :=
    @recorded_steady { session with machine := session.machine.cycle.machine } sound.recorder
  unfold Session.advance
  dsimp only
  rw [returns, recorded]
  exact ⟨rfl, valid, steady⟩

theorem Sound.cycleTimes (sound : session.Sound) (started : session.started = true)
    (count : Nat) : (session.cycleTimes count).result = .ok () := by
  induction count generalizing session with
  | zero => rfl
  | succ count ih =>
      obtain ⟨ends, after⟩ := sound.advance
      have goes : session.cycle = session.advance := if_pos started
      rw [cycleTimes_succ, goes, Turnout.andThen_ok ends]
      exact ih after (session.advance_keeps.2.trans started)

/-- A session that is started runs its cycles one by one as in a frame up to the first that fails or
leaves the machine halted. The frame ends there. Each cycle that is left stops the tone and is recorded,
if the last one has not failed. In a sound session none of them fails. -/
theorem stepping_past_frame (session : Session) (started : session.started = true) (count : Nat) :
    let stepped := session.cycleTimes count
    let framed := runFrame { session with cyclesPerFrame := .int count }
    (session.Sound → framed.result = .ok () ∧ stepped.result = .ok ()) ∧
    ∃ run ≤ count,
      (∀ earlier < run, (session.cycleTimes earlier).GoesOn) ∧
      (run < count → ¬ (session.cycleTimes run).GoesOn) ∧
      framed.unpaced = (session.cycleTimes run).unpaced ∧
      (framed.result ≠ .ok () → framed.unpaced = stepped.unpaced) ∧
      (framed.result = .ok () →
        stepped.session.machine = { framed.session.machine with
          tone := framed.session.machine.tone && run == count } ∧
        stepped.session.recorder = (framed.session.recordedTimes (count - run)).1) := by
  intro stepped framed
  obtain ⟨run, within, lasts, halts, frame, split⟩ := cycleTimes_split started count
  have same : framed.unpaced = (session.cycleTimes run).unpaced := by
    have ran := @runFrame_unpaced { session with cyclesPerFrame := .int count } count rfl
    rw [← frame, advanceMany_unpaced]
    exact ran
  obtain ⟨sessions, results, -⟩ := Turnout.eq_of_unpaced same
  have result : framed.result = (session.cycleTimes run).result := by
    revert results
    cases framed.result <;> cases (session.cycleTimes run).result <;> exact id
  have runs : (session.cycleTimes run).session.started = true := cycleTimes_started started run
  refine ⟨?_, run, within, lasts, halts, same, ?_, ?_⟩
  · intro sound
    exact ⟨result.trans (sound.cycleTimes started run), sound.cycleTimes started count⟩
  · intro fails
    rw [result] at fails
    cases ends : (session.cycleTimes run).result with
    | ok value => exact absurd ends fails
    | error fault =>
        have last : stepped = session.cycleTimes run := by
          change session.cycleTimes count = _
          rw [split, Turnout.andThen_error ends, ← ends]
        rw [last]
        exact same
  · intro fine
    rw [result] at fine
    have last : stepped.session =
        ((session.cycleTimes run).session.cycleTimes (count - run)).session := by
      change (session.cycleTimes count).session = _
      rw [split, Turnout.andThen_ok fine]
    rcases Nat.lt_or_eq_of_le within with more | whole
    · have stopped : (session.cycleTimes run).session.machine.halted = true := by
        have stays := halts more
        simp only [Turnout.GoesOn, fine, true_and, Bool.not_eq_false] at stays
        exact stays
      have left : (count - run == 0) = (run == count) := by
        rw [Bool.eq_iff_iff, beq_iff_eq, beq_iff_eq]
        omega
      rw [last, cycleTimes_halted runs stopped, sessions, left]
      exact ⟨rfl, rfl⟩
    · rw [last, sessions, whole, Nat.sub_self, beq_self_eq_true]
      obtain ⟨settings, machine, cyclesPerFrame, keymap, started, frames, recorder⟩ :=
        (session.cycleTimes count).session
      cases recorder <;> simp [cycleTimes, paced, recordedTimes, Recorder.recordAll]

/-- On a session with a new machine neither way ends with a fault. -/
theorem stepping_past_frame_new :
    let session : Session := ⟨[], .new (.blank 8 4) (.ofSeed 12345), .null, .null, true, 0, none⟩
    session.started = true ∧ (session.cycleTimes 2).result = .ok () ∧
      (runFrame { session with cyclesPerFrame := .int 2 }).result = .ok () := by
  intro session
  have sound : session.Sound :=
    ⟨Machine.fresh_wellFormed _ _ _ (by decide) (by decide), nofun⟩
  obtain ⟨framed, stepped⟩ := (stepping_past_frame session rfl 2).1 sound
  exact ⟨rfl, stepped, framed⟩

/-- A machine that faces the word that stops halts there. -/
theorem stop_halts {machine : Machine} (faces : machine.Faces 0x0000) :
    machine.execution? = some (0x0000, .halted) ∧ machine.cycle.machine.halted = true := by
  obtain ⟨memory, -, goes⟩ :=
    Machine.cycle_word faces.awake faces.few faces.allowed faces.found
  rw [Machine.perform_spelled _ (.stop rfl)] at goes
  obtain ⟨stops, after⟩ := goes .halted rfl
  refine ⟨stops, ?_⟩
  rw [after, Machine.checkErrors_machine]
  rfl

/-- A program that charges the sound timer and stops halts the machine in its third cycle, with a
tone. -/
theorem charging_stops :
    let stopping := (Machine.new (.blank 8 4) (.ofSeed 12345)).serveAll
      (Machine.charging 0x18 [0x00, 0x00])
    stopping.cycle.machine.cycle.machine.halted = true ∧
      stopping.cycle.machine.cycle.machine.tone = true := by
  intro stopping
  have sound : Timer.sound.opcode.Covers ((0xf000 + (0x18 : UInt8).toNat : Nat) : Int) := by decide
  have reached : Machine.Reachable stopping :=
    (Machine.Reachable.new (.blank 8 4) (.ofSeed 12345) (by decide) (by decide)).serveAll _
  obtain ⟨-, -, two, -⟩ :=
    Machine.charging_faces (Machine.new (.blank 8 4) (.ofSeed 12345)) 0x18 0x00 0x00
  obtain ⟨charges, next, -⟩ :=
    Machine.charging_passes (Machine.new (.blank 8 4) (.ofSeed 12345)) sound 0x00 0x00
  change stopping.register 0 = 2 at two
  change stopping.execution? = _ at charges
  change stopping.cycle.machine.Faces 0x0000 at next
  clear_value stopping
  have left := Machine.set_timer reached charges sound
    (⟨nofun, nofun⟩ : stopping.cycle.machine.LeavesTimer .sound [])
  rw [Machine.serveAll_nil, Machine.ticks_cycle (Machine.ticks_of_execution charges)] at left
  change stopping.cycle.machine.timer .sound = max 0 (stopping.register 0 - 1) at left
  rw [two] at left
  obtain ⟨stops, halts⟩ := stop_halts next
  obtain ⟨word, status, execution, -, tone⟩ :=
    Machine.cycle_ticks (reached.serve .cycle) ⟨next.awake, next.allowed⟩
  change stopping.cycle.machine.execution? = _ at execution
  change stopping.cycle.machine.cycle.machine.tone = decide (0 < stopping.cycle.machine.charged _ _)
    at tone
  rw [stops] at execution
  cases execution
  have silent : stopping.cycle.machine.charged 0x0000 .sound = stopping.cycle.machine.timer .sound :=
    if_neg (by decide)
  rw [silent, left] at tone
  exact ⟨halts, tone⟩

/-- A program that a host loads and starts runs cycle by cycle, as the machine does. -/
theorem actAll_three_cycles (session : Session) (program : Option (List UInt8)) :
    let after := session.actAll [.load program, .start, .cycle, .cycle, .cycle]
    after.machine =
        (session.machine.serveAll [.load program, .cycle]).cycle.machine.cycle.machine ∧
      after.started = true := by
  have begun : (session.load program).session.start.started = true := rfl
  obtain ⟨first, runs⟩ := cycle_started begun
  obtain ⟨second, goes⟩ := cycle_started runs
  obtain ⟨third, lasts⟩ := cycle_started goes
  rw [second, first] at third
  exact ⟨third, lasts⟩

/-- The two ways differ: where a program has halted with a tone, one more cycle stops the tone, and a
frame of one cycle does not. -/
theorem stepping_unlike_frame :
    ¬ ∀ (system overrides : Value) (session : Session),
      make Display.usualPixels system overrides = .ok session →
      ∀ (actions : List Action) (count : Nat), (session.actAll actions).started = true →
        ((session.actAll actions).cycleTimes count).session.machine =
          (runFrame { session.actAll actions with cyclesPerFrame := .int count }).session.machine := by
  intro promised
  let overrides := Value.record [("resolution", .ints [8, 4])]
  have made : (make Display.usualPixels (.text systemName) overrides).map Session.machine =
      .ok (.new (.blank 8 4) (.ofSeed 12345)) := rfl
  cases makes : make Display.usualPixels (.text systemName) overrides with
  | error fault =>
      rw [makes] at made
      cases made
  | ok session =>
      rw [makes] at made
      have machine : session.machine = .new (.blank 8 4) (.ofSeed 12345) := Except.ok.inj made
      obtain ⟨ran, started⟩ :=
        session.actAll_three_cycles (some ([0x60, 0x02, 0xf0, 0x18] ++ [0x00, 0x00]))
      have same := promised _ _ session makes _ 1 started
      obtain ⟨stopped, sounds⟩ := charging_stops
      rw [machine] at ran
      generalize session.actAll _ = after at same started ran
      unfold Machine.charging at stopped sounds
      rw [← ran] at stopped sounds
      have tones := congrArg Machine.tone (same.trans (runFrame_halted stopped 1))
      rw [cycleTimes_halted started stopped] at tones
      change (after.machine.tone && false) = after.machine.tone at tones
      rw [sounds] at tones
      cases tones

end ChipEight.Session
