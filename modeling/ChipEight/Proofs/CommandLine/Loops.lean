/-
This file compares the two loops of a run. A run by frames and a run by as many cycles come to the same
session, but for the count of its frames, and end alike: the record of the frame in which the machine
halted is all that a run by frames adds to what is written, and nothing later asks what was written.
-/

import ChipEight.Proofs.CommandLine.Preparing
import ChipEight.Proofs.Session.Frames

namespace ChipEight.CommandLine

variable {A B : Type}

/-- A run up to the end of its loop. -/
def finish (options : Options) : Run (Settings × Session) := do
  let (settings, ready) ← prepare options
  pure (settings, ← spend options ready)

theorem follow_eq (options : Options) :
    follow options =
      finish options >>= fun (settings, session) => conclude options settings session := by
  unfold follow finish prepare conclude
  simp only [bind_assoc, pure_bind]

/-! ### The two loops -/

/-- The options of a run by so many frames. -/
def byFrames (options : Options) (count : Nat) : Options :=
  { options with
    frames := .value count
    cycles := .absent }

/-- The options of a run by so many cycles. -/
def byCycles (options : Options) (count : Int) : Options :=
  { options with cycles := .value count }

/-- Two sessions with the same frames differ in nothing but the count of those that were run. -/
def SameRun (one other : Session) : Prop :=
  one = { other with frames := one.frames }

theorem map_done {E : Type} (result : Except E Unit) : (result.map fun _ => ()) = result := by
  cases result <;> rfl

theorem sameRun_of_unpaced {first : Session.Turnout A} {second : Session.Turnout B}
    (same : first.unpaced = second.unpaced)
    (sizes : first.session.cyclesPerFrame = second.session.cyclesPerFrame) :
    SameRun first.session second.session := by
  have sessions := (Session.Turnout.eq_of_unpaced same).1
  rw [sizes] at sessions
  exact sessions

/-- Actions of a session that are the same but for the pace are performed alike. -/
theorem perform_alike {first : Session.Turnout A} {second : Session.Turnout B}
    (same : first.unpaced = second.unpaced)
    (sizes : first.session.cyclesPerFrame = second.session.cyclesPerFrame) (progress : Progress) :
    Alike (fun one other => SameRun one.2 other.2) (outcome (perform first) progress)
      (outcome (perform second) progress) := by
  have sessions := sameRun_of_unpaced same sizes
  obtain ⟨-, results, notices⟩ := Session.Turnout.eq_of_unpaced same
  obtain ⟨one, result, told⟩ := first
  obtain ⟨other, twin, also⟩ := second
  obtain rfl : told = also := notices
  match result, twin with
  | .error fault, .error same =>
      obtain rfl : fault = same := Except.error.inj results
      exact .ended (.fault fault) rfl
  | .ok value, .ok same => exact .value sessions rfl

/-- As many cycles as frames of a size have; frames of a negative size have none. -/
theorem toNat_frames (count : Nat) (size : Int) :
    (count * size : Int).toNat = count * size.toNat := by
  rcases Int.le_total 0 size with positive | negative
  · rw [Int.toNat_mul (Int.natCast_nonneg count) positive, Int.toNat_natCast]
  · rw [Int.toNat_of_nonpos negative, Nat.mul_zero]
    exact Int.toNat_of_nonpos
      (Int.mul_nonpos_of_nonneg_of_nonpos (Int.natCast_nonneg count) negative)

/-- The two loops leave the same, but for the pace, and frames of the same size. -/
theorem loops_unpaced {ready : Session} {size : Int}
    (sized : ready.cyclesPerFrame.whole? = some size) (count : Nat) :
    (ready.start.runFrames 1 count).unpaced =
        (ready.start.runCycles (count * size : Int).toNat).unpaced ∧
      (ready.start.runFrames 1 count).session.cyclesPerFrame =
        (ready.start.runCycles (count * size : Int).toNat).session.cyclesPerFrame := by
  have begun : ready.start.cyclesPerFrame.whole? = some size := sized
  rw [toNat_frames, Session.runFrames_cyclesPerFrame begun,
    Session.runFrames_runCycles begun rfl 1 count]
  refine ⟨rfl, ?_⟩
  rw [Session.runCycles_eq_advanceMany rfl, Session.advanceMany_cyclesPerFrame]

/-- The two loops come to the same session but for the count of its frames, or fail alike. -/
theorem spend_alike (options : Options) {ready : Session} {size : Int}
    (sized : ready.cyclesPerFrame.whole? = some size) (count : Nat) (progress : Progress) :
    Alike SameRun (outcome (spend (byFrames options count) ready) progress)
      (outcome (spend (byCycles options (count * size)) ready) progress) := by
  obtain ⟨same, sizes⟩ := loops_unpaced sized count
  refine (perform_alike same sizes progress).bind fun {one other left right} given layouts => ?_
  obtain ⟨halted, after⟩ := one
  obtain ⟨done, twin⟩ := other
  have stopped : SameRun after.stop twin.stop := by
    rw [show after = { twin with frames := after.frames } from given]
    rfl
  cases halted with
  | none => exact .value stopped layouts
  | some number => exact .value stopped ((left.journal.write_layout left.files _).trans layouts)

/-- Runs up to the end of their loops come to the same session but for the count of its frames. -/
theorem finish_alike {options : Options} {progress : Progress} {size : Int}
    (sized : ∀ {settings later}, outcome (settingsOf options) progress = (.ok settings, later) →
      settings.frameSize.whole? = some size) (count : Nat) :
    Alike (fun one other => one.1 = other.1 ∧ SameRun one.2 other.2)
      (outcome (finish (byFrames options count)) progress)
      (outcome (finish (byCycles options (count * size))) progress) := by
  change Alike _ (outcome (prepare options >>= _) progress) (outcome (prepare options >>= _) progress)
  rw [outcome_bind, outcome_bind]
  obtain ⟨ended, prepared⟩ : ∃ ended, outcome (prepare options) progress = ended := ⟨_, rfl⟩
  rw [prepared]
  match ended with
  | (.error ending, later) => exact .ended ending rfl
  | (.ok (settings, ready), later) =>
      obtain ⟨⟨noted, read⟩, asked⟩ := prepare_frameSize prepared
      have found : ready.cyclesPerFrame.whole? = some size :=
        (congrArg Value.whole? asked).trans (sized read)
      refine (spend_alike options found count later).bind fun same layouts => ?_
      exact .value ⟨rfl, same⟩ layouts

/-! ### The ends of runs -/

/-- Runs with the options of the two loops end alike. -/
theorem follow_alike {options : Options} {progress : Progress} {size : Int}
    (sized : ∀ {settings later}, outcome (settingsOf options) progress = (.ok settings, later) →
      settings.frameSize.whole? = some size) (count : Nat) :
    Alike Eq (outcome (follow (byFrames options count)) progress)
      (outcome (follow (byCycles options (count * size))) progress) := by
  rw [follow_eq, follow_eq]
  refine (finish_alike sized count).bind fun {one other left right} same layouts => ?_
  obtain ⟨settings, after⟩ := one
  obtain ⟨others, twin⟩ := other
  obtain ⟨rfl, alike⟩ : settings = others ∧ SameRun after twin := same
  rw [alike]
  exact (blind_conclude options settings twin).alike layouts

theorem start_eq {words : List String} {options : Options}
    (reads : Options.ofArguments words = .ok options) :
    start words = if options.help then throw .help else follow options := by
  unfold start
  rw [reads]

theorem run_ending {files : Files} {first second : List String}
    (alike : Alike Eq (outcome (start first) { files }) (outcome (start second) { files })) :
    (run files first).1 = (run files second).1 := by
  change (match outcome (start first) { files } with
      | (.ok number, progress) => (Ending.status number, progress)
      | (.error ending, progress) => (ending, progress)).1 =
    (match outcome (start second) { files } with
      | (.ok number, progress) => (Ending.status number, progress)
      | (.error ending, progress) => (ending, progress)).1
  generalize outcome (start first) { files } = one at alike ⊢
  generalize outcome (start second) { files } = other at alike ⊢
  cases alike with
  | value given => exact congrArg Ending.status given
  | ended ending => rfl

/-- What a run came to by the end of its loop, but for the count of its frames. -/
def uncounted (reached : Settings × Session) : Settings × Session :=
  (reached.1, { reached.2 with frames := 0 })

theorem Alike.uncounted {one other : Except Ending (Settings × Session) × Progress}
    (alike : Alike (fun first second => first.1 = second.1 ∧ SameRun first.2 second.2) one other) :
    one.1.map uncounted = other.1.map uncounted := by
  cases alike with
  | ended ending => rfl
  | @value _ _ first second given =>
      obtain ⟨settings, after⟩ := first
      obtain ⟨others, twin⟩ := second
      obtain ⟨rfl, same⟩ : settings = others ∧ SameRun after twin := given
      rw [same]
      rfl

/-- How cycles are cut into frames does not matter. Frames of any sizes leave what one frame of all
their cycles leaves, but for the pace. A session that is started comes to the same by frames and by as
many cycles, each until the machine is halted. So do two runs with the words for the one and for the
other, of whatever files and options, where the settings ask for frames of that size; and these runs end
in the same way. -/
theorem framing_immaterial :
    (∀ (session : Session) (sizes : List Nat),
      let cut := session.runSizes sizes
      let whole := { session with cyclesPerFrame := .int sizes.sum }.runFrame
      cut.session = whole.session.paced cut.session.cyclesPerFrame cut.session.frames ∧
        cut.result = whole.result ∧ cut.notices = whole.notices) ∧
    (∀ (session : Session) (size : Int) (count : Nat),
      session.cyclesPerFrame.whole? = some size →
      let frames := session.start.runFrames 1 count
      let cycles := session.start.runCycles (count * size : Int).toNat
      SameRun frames.session cycles.session ∧ (frames.result.map fun _ => ()) = cycles.result ∧
        frames.notices = cycles.notices) ∧
    ∀ (files : Files) (options : Options) (count : Nat) (size : Int) (frames cycles : List String),
      Options.ofArguments frames = .ok (byFrames options count) →
      Options.ofArguments cycles = .ok (byCycles options (count * size)) →
      (∀ settings later, outcome (settingsOf options) { files } = (.ok settings, later) →
        settings.frameSize.whole? = some size) →
      (outcome (finish (byFrames options count)) { files }).1.map uncounted =
          (outcome (finish (byCycles options (count * size))) { files }).1.map uncounted ∧
        (run files frames).1 = (run files cycles).1 := by
  refine ⟨?_, ?_, ?_⟩
  · intro session sizes cut whole
    have single := @Session.runFrame_unpaced { session with cyclesPerFrame := .int sizes.sum }
      sizes.sum rfl
    have same : cut.unpaced = whole.unpaced := (session.runSizes_unpaced sizes).trans single.symm
    obtain ⟨sessions, results, notices⟩ := Session.Turnout.eq_of_unpaced same
    rw [map_done, map_done] at results
    exact ⟨sessions, results, notices⟩
  · intro session size count sized frames cycles
    obtain ⟨same, sizes⟩ := loops_unpaced sized count
    obtain ⟨-, results, notices⟩ := Session.Turnout.eq_of_unpaced same
    rw [map_done cycles.result] at results
    exact ⟨sameRun_of_unpaced same sizes, results, notices⟩
  · intro files options count size frames cycles readsFrames readsCycles sized
    refine ⟨(finish_alike (fun read => sized _ _ read) count).uncounted, run_ending ?_⟩
    rw [start_eq readsFrames, start_eq readsCycles]
    change Alike Eq (outcome (if options.help then _ else _) _)
      (outcome (if options.help then _ else _) _)
    split
    · exact .ended .help rfl
    · exact follow_alike (fun read => sized _ _ read) count

/-- Options are read as what they turn out to be. -/
theorem reads_of_toOption {read : Except Complaint Options} {options : Options}
    (found : read.toOption = some options) : read = .ok options := by
  cases read with
  | error complaint => cases found
  | ok other => exact congrArg Except.ok (Option.some.inj found)

/-- A program of one word, run by two frames of the usual size and by twenty cycles. -/
theorem framing_immaterial_twenty :
    let files : Files := ⟨[(["game.ch8"], .file (.bytes ⟨#[0x00, 0xe0]⟩))]⟩
    let options : Options := { rom := .value "game.ch8" }
    let frames := ["--rom", "game.ch8", "--frames", "2"]
    let cycles := ["--rom", "game.ch8", "--cycles", "20"]
    Options.ofArguments frames = .ok (byFrames options 2) ∧
      Options.ofArguments cycles = .ok (byCycles options 20) ∧
      (∀ settings later, outcome (settingsOf options) { files } = (.ok settings, later) →
        settings.frameSize.whole? = some 10) ∧
      (run files frames).1 = (run files cycles).1 := by
  intro files options frames cycles
  have readsFrames : Options.ofArguments frames = .ok (byFrames options 2) :=
    reads_of_toOption (by decide +kernel)
  have readsCycles : Options.ofArguments cycles = .ok (byCycles options 20) :=
    reads_of_toOption (by decide +kernel)
  have sized (settings : Settings) (later : Progress)
      (read : outcome (settingsOf options) { files } = (.ok settings, later)) :
      settings.frameSize.whole? = some 10 := by
    obtain rfl : settings = .initial := (Except.ok.inj (congrArg Prod.fst read)).symm
    exact Settings.frameSize_initial
  exact ⟨readsFrames, readsCycles, sized,
    (framing_immaterial.2.2 files options 2 10 frames cycles readsFrames readsCycles sized).2⟩

end ChipEight.CommandLine
