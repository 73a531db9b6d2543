/-
This file shows that the cycles of a session may be cut into frames in any way. Frames one after
another, one frame of all their cycles, and the cycles one by one until the machine is halted leave the
same machine and the same record; only the count of frames tells them apart.
-/

import ChipEight.Session
import Mathlib.Algebra.GroupWithZero.Nat

namespace ChipEight.Session

/-- The session with frames of another size and another count of them. -/
def paced (session : Session) (size : Value) (frames : Nat) : Session :=
  { session with
    cyclesPerFrame := size
    frames := frames }

/-- The session after cycles one by one, whether or not the machine is halted. -/
def cycleTimes (session : Session) : Nat → Turnout Unit
  | 0 => ⟨session, .ok (), []⟩
  | count + 1 => session.cycle.andThen fun next _ => next.cycleTimes count

/-- The session after frames of the given sizes. -/
def runSizes (session : Session) : List Nat → Turnout Unit
  | [] => ⟨session, .ok (), []⟩
  | size :: rest =>
      Turnout.andThen { session with cyclesPerFrame := .int size }.runFrame fun next _ =>
        next.runSizes rest

namespace Turnout

variable {A B C : Type}

/-- What an action gives, but for the pace of the session and for the value of the result. -/
def unpaced (turnout : Turnout A) : Turnout Unit :=
  ⟨turnout.session.paced .null 0, turnout.result.map fun _ => (), turnout.notices⟩

theorem andThen_assoc (first : Turnout A) (second : Session → A → Turnout B)
    (third : Session → B → Turnout C) :
    (first.andThen second).andThen third =
      first.andThen fun session value => (second session value).andThen third := by
  obtain ⟨session, result, notices⟩ := first
  cases result with
  | error fault => rfl
  | ok value =>
      simp only [andThen]
      cases (second session value).result with
      | error fault => rfl
      | ok other => simp only [List.append_assoc]

theorem andThen_error {first : Turnout A} {fault : Fault} (fails : first.result = .error fault)
    (next : Session → A → Turnout B) :
    first.andThen next = ⟨first.session, .error fault, first.notices⟩ := by
  unfold andThen
  rw [fails]

theorem andThen_ok {first : Turnout A} {value : A} (ends : first.result = .ok value)
    (next : Session → A → Turnout B) :
    first.andThen next =
      ⟨(next first.session value).session, (next first.session value).result,
        first.notices ++ (next first.session value).notices⟩ := by
  unfold andThen
  rw [ends]

/-- An action after one that does nothing. -/
theorem done_andThen (session : Session) (value : A) (next : Session → A → Turnout B) :
    andThen ⟨session, .ok value, []⟩ next = next session value := by
  simp only [andThen, List.nil_append]

/-- An action before one that does nothing. -/
theorem andThen_done (first : Turnout Unit) :
    (first.andThen fun session _ => ⟨session, .ok (), []⟩) = first := by
  obtain ⟨session, result, notices⟩ := first
  cases result with
  | error fault => rfl
  | ok value => simp only [andThen, List.append_nil]

/-- Actions are the same but for the pace if the first are, and if the second are after it. -/
theorem andThen_unpaced {first : Turnout A} {next : Session → A → Turnout B}
    {other : Session → Unit → Turnout Unit}
    (same : ∀ value, (next first.session value).unpaced = other (first.session.paced .null 0) ()) :
    (first.andThen next).unpaced = first.unpaced.andThen other := by
  obtain ⟨session, result, notices⟩ := first
  cases result with
  | error fault => rfl
  | ok value =>
      have after := same value
      simp only [andThen, unpaced, Except.map] at after ⊢
      rw [← after]

/-- Turnouts that are the same but for the pace. -/
theorem eq_of_unpaced {first : Turnout A} {second : Turnout B}
    (same : first.unpaced = second.unpaced) :
    first.session = second.session.paced first.session.cyclesPerFrame first.session.frames ∧
      (first.result.map fun _ => ()) = (second.result.map fun _ => ()) ∧
      first.notices = second.notices := by
  have sessions : first.session.paced .null 0 = second.session.paced .null 0 :=
    congrArg session same
  refine ⟨?_, congrArg result same, congrArg notices same⟩
  generalize first.session = one at sessions ⊢
  generalize second.session = other at sessions ⊢
  cases one
  cases other
  simp_all [paced]

end Turnout

variable {session : Session}

/-! ### The pace -/

theorem recorded_paced (session : Session) (size : Value) (frames : Nat) :
    (session.paced size frames).recorded =
      (session.recorded.1.paced size frames, session.recorded.2) := by
  obtain ⟨settings, machine, cyclesPerFrame, keymap, started, count, recorder⟩ := session
  cases recorder <;> rfl

/-- A cycle neither asks for the pace nor changes it. -/
theorem advance_paced (session : Session) (size : Value) (frames : Nat) :
    (session.paced size frames).advance =
      ⟨session.advance.session.paced size frames, session.advance.result,
        session.advance.notices⟩ := by
  unfold advance
  cases ends : session.machine.cycle.result with
  | error fault => simp only [paced, ends]
  | ok value =>
      have records :=
        recorded_paced { session with machine := session.machine.cycle.machine } size frames
      simp only [paced] at records
      simp only [paced, ends, records]

theorem advance_unpaced (session : Session) :
    session.advance.unpaced = (session.paced .null 0).advance := by
  rw [advance_paced]
  obtain ⟨after, result, notices⟩ := session.advance
  cases result <;> rfl

theorem advanceMany_unpaced (session : Session) (count : Nat) :
    (session.advanceMany count).unpaced = (session.paced .null 0).advanceMany count := by
  induction count generalizing session with
  | zero => rfl
  | succ count ih =>
      unfold advanceMany
      by_cases stopped : session.machine.halted = true
      · rw [if_pos stopped, if_pos (show (session.paced .null 0).machine.halted = true from stopped)]
        rfl
      · rw [if_neg stopped,
          if_neg (show ¬ (session.paced .null 0).machine.halted = true from stopped),
          ← advance_unpaced]
        exact Turnout.andThen_unpaced fun _ => ih session.advance.session

/-- A cycle leaves the size of frames, and a session that is started stays so. -/
theorem advance_keeps (session : Session) :
    session.advance.session.cyclesPerFrame = session.cyclesPerFrame ∧
      session.advance.session.started = session.started := by
  unfold advance
  dsimp only
  split
  · exact ⟨rfl, rfl⟩
  · unfold recorded
    split <;> exact ⟨rfl, rfl⟩

theorem advanceMany_cyclesPerFrame (session : Session) (count : Nat) :
    (session.advanceMany count).session.cyclesPerFrame = session.cyclesPerFrame := by
  induction count generalizing session with
  | zero => rfl
  | succ count ih =>
      unfold advanceMany Turnout.andThen
      split
      · rfl
      · split
        · exact session.advance_keeps.1
        · exact (ih _).trans session.advance_keeps.1

/-! ### Cycles one after another -/

theorem advanceMany_succ (session : Session) (count : Nat) :
    session.advanceMany (count + 1) =
      if session.machine.halted then ⟨session, .ok (), []⟩
      else session.advance.andThen fun next _ => next.advanceMany count := rfl

theorem advanceMany_halted (stopped : session.machine.halted = true) (count : Nat) :
    session.advanceMany count = ⟨session, .ok (), []⟩ := by
  cases count with
  | zero => rfl
  | succ count => exact if_pos stopped

/-- Cycles may be counted in two parts. If the machine is halted in the first, there are none in the
second. -/
theorem advanceMany_add (session : Session) (first second : Nat) :
    session.advanceMany (first + second) =
      (session.advanceMany first).andThen fun next _ => next.advanceMany second := by
  induction first generalizing session with
  | zero =>
      rw [Nat.zero_add]
      exact (Turnout.done_andThen session () fun next _ => next.advanceMany second).symm
  | succ first ih =>
      rw [Nat.succ_add, advanceMany_succ, advanceMany_succ]
      by_cases stopped : session.machine.halted = true
      · rw [if_pos stopped, if_pos stopped, Turnout.done_andThen, advanceMany_halted stopped]
      · rw [if_neg stopped, if_neg stopped, Turnout.andThen_assoc]
        simp only [ih]

/-- A session that is started runs its cycles one by one as a frame does. -/
theorem runCycles_eq_advanceMany (started : session.started = true) (count : Nat) :
    session.runCycles count = session.advanceMany count := by
  induction count generalizing session with
  | zero => rfl
  | succ count ih =>
      have goes : session.cycle = session.advance := if_pos started
      have later := @ih session.advance.session (session.advance_keeps.2.trans started)
      unfold runCycles advanceMany
      rw [goes]
      simp only [Turnout.andThen, later]

/-! ### Frames -/

/-- A frame runs its cycles and is counted. -/
theorem runFrame_unpaced {size : Int} (sized : session.cyclesPerFrame.whole? = some size) :
    session.runFrame.unpaced = (session.paced .null 0).advanceMany size.toNat := by
  unfold runFrame
  rw [sized]
  dsimp only
  rw [@Turnout.andThen_unpaced _ _ _ _ fun next _ => ⟨next, .ok (), []⟩]
  · rw [Turnout.andThen_done, advanceMany_unpaced]
  · intro value
    rfl

theorem runFrame_machine {size : Int} (sized : session.cyclesPerFrame.whole? = some size) :
    session.runFrame.session.machine = (session.advanceMany size.toNat).session.machine := by
  unfold runFrame Turnout.andThen
  rw [sized]
  dsimp only
  split <;> rfl

/-- A frame leaves a halted machine alone. -/
theorem runFrame_halted (stopped : session.machine.halted = true) (count : Nat) :
    (runFrame { session with cyclesPerFrame := .int count }).session.machine = session.machine := by
  rw [@runFrame_machine { session with cyclesPerFrame := .int count } count rfl,
    @advanceMany_halted { session with cyclesPerFrame := .int count } stopped]

theorem runFrame_cyclesPerFrame {size : Int} (sized : session.cyclesPerFrame.whole? = some size) :
    session.runFrame.session.cyclesPerFrame = session.cyclesPerFrame := by
  have ran := session.advanceMany_cyclesPerFrame size.toNat
  unfold runFrame Turnout.andThen
  rw [sized]
  dsimp only
  split <;> exact ran

theorem runSizes_unpaced (session : Session) (sizes : List Nat) :
    (session.runSizes sizes).unpaced = (session.paced .null 0).advanceMany sizes.sum := by
  induction sizes generalizing session with
  | nil => rfl
  | cons size rest ih =>
      have first := @runFrame_unpaced { session with cyclesPerFrame := .int size } size rfl
      rw [Int.toNat_natCast] at first
      rw [List.sum_cons, advanceMany_add]
      unfold runSizes
      rw [@Turnout.andThen_unpaced _ _ _ _ fun next _ => next.advanceMany rest.sum, first]
      · rfl
      · intro value
        exact ih _

/-- Frames until the machine is halted are cycles until the machine is halted. -/
theorem runFrames_unpaced {size : Int} (sized : session.cyclesPerFrame.whole? = some size)
    (number count : Nat) :
    (session.runFrames number count).unpaced =
      (session.paced .null 0).advanceMany (count * size.toNat) := by
  induction count generalizing session number with
  | zero =>
      rw [Nat.zero_mul]
      rfl
  | succ count ih =>
      have next := (congrArg Value.whole? (runFrame_cyclesPerFrame sized)).trans sized
      have total : (count + 1) * size.toNat = size.toNat + count * size.toNat := by
        rw [Nat.succ_mul, Nat.add_comm]
      unfold runFrames
      rw [total, advanceMany_add, ← runFrame_unpaced sized]
      apply Turnout.andThen_unpaced
      intro value
      split
      case isTrue stopped =>
        exact (advanceMany_halted
          (show (session.runFrame.session.paced .null 0).machine.halted = true from stopped) _).symm
      case isFalse => exact ih next (number + 1)

theorem runFrames_cyclesPerFrame {size : Int} (sized : session.cyclesPerFrame.whole? = some size)
    (number count : Nat) :
    (session.runFrames number count).session.cyclesPerFrame = session.cyclesPerFrame := by
  induction count generalizing session number with
  | zero => rfl
  | succ count ih =>
      have kept := runFrame_cyclesPerFrame sized
      have next := (congrArg Value.whole? kept).trans sized
      unfold runFrames Turnout.andThen
      split
      · exact kept
      · dsimp only
        split
        · exact kept
        · exact (ih next (number + 1)).trans kept

/-- Frames and as many cycles one by one, each until the machine is halted. -/
theorem runFrames_runCycles {size : Int} (sized : session.cyclesPerFrame.whole? = some size)
    (started : session.started = true) (number count : Nat) :
    (session.runFrames number count).unpaced =
      (session.runCycles (count * size.toNat)).unpaced := by
  rw [runFrames_unpaced sized, runCycles_eq_advanceMany started, advanceMany_unpaced]

end ChipEight.Session
