/-
This file shows what a run prepares for its loop: a session with frames of the size that its settings ask
for. Neither a recorder nor the program nor the keys that are held change that size.
-/

import ChipEight.Proofs.CommandLine.Blind
import ChipEight.Proofs.Settings.Pace

namespace ChipEight.CommandLine

variable {A B : Type}

/-- A run up to its loop: the settings, and the session with its program and the keys that are held. -/
def prepare (options : Options) : Run (Settings × Session) := do
  let settings ← settingsOf options
  openJournal options settings
  let made ← makeSession settings
  let recording ← withRecorder options settings made
  let loaded ← loadProgram recording (programPath options)
  let ready ← holdKeys loaded options.keys
  sayTitle options settings
  pure (settings, ready)

/-! ### What a part of a run gives -/

/-- Whatever a part of a run gives has a property. -/
structure Gives (holds : A → Prop) (action : Run A) : Prop where
  given : ∀ {progress later : Progress} {value : A},
    outcome action progress = (.ok value, later) → holds value

theorem gives_any (action : Run A) : Gives (fun _ => True) action :=
  ⟨fun _ => trivial⟩

theorem gives_pure {holds : A → Prop} {value : A} (known : holds value) :
    Gives holds (pure value) where
  given gives := by
    cases gives
    exact known

theorem gives_throw {holds : A → Prop} (ending : Ending) : Gives holds (throw ending : Run A) where
  given gives := by cases gives

theorem gives_ofResult (result : Except Fault A) :
    Gives (fun value => result = .ok value) (ofResult result) where
  given gives := by
    cases result with
    | error fault => cases gives
    | ok value => cases gives; rfl

theorem Gives.bind {holds : A → Prop} {also : B → Prop} {action : Run A} {next : A → Run B}
    (first : Gives holds action) (second : ∀ value, holds value → Gives also (next value)) :
    Gives also (action >>= next) where
  given gives := by
    obtain ⟨value, later, starts, ends⟩ := outcome_bind_ok gives
    exact (second value (first.given starts)).given ends

theorem gives_foldlM {holds : B → Prop} {step : B → A → Run B}
    (steps : ∀ current item, holds current → Gives holds (step current item)) {start : B}
    (known : holds start) (items : List A) : Gives holds (items.foldlM step start) := by
  induction items generalizing start with
  | nil => exact gives_pure known
  | cons item rest ih =>
      rw [List.foldlM_cons]
      exact (steps start item known).bind fun next holds => ih holds

/-- The session of a run has frames of the size that the settings ask for. -/
theorem makeSession_frameSize (settings : Settings) :
    Gives (fun session => session.cyclesPerFrame = settings.frameSize) (makeSession settings) := by
  unfold makeSession
  refine (gives_ofResult _).bind fun overrides laid => (gives_any _).bind fun _ _ => ?_
  split
  case h_1 session made => exact gives_pure (Settings.make_cyclesPerFrame laid made)
  case h_2 =>
    split
    · exact (gives_any _).bind fun _ _ => gives_throw _
    · exact gives_throw _

theorem withRecorder_cyclesPerFrame (options : Options) (settings : Settings) (session : Session) :
    Gives (fun after => after.cyclesPerFrame = session.cyclesPerFrame)
      (withRecorder options settings session) := by
  unfold withRecorder
  refine (gives_any _).bind fun start _ => ?_
  split
  · exact (gives_any _).bind fun _ _ => (gives_any _).bind fun _ _ => gives_pure rfl
  · exact gives_pure rfl

theorem loadFrom_cyclesPerFrame (session : Session) (read : String → Except Fault (List UInt8))
    (path : Value) :
    (session.loadFrom read path).session.cyclesPerFrame = session.cyclesPerFrame := by
  unfold Session.loadFrom
  split
  · dsimp only
    split <;> rfl
  · rfl

theorem loadProgram_cyclesPerFrame (session : Session) (path : Value) :
    Gives (fun after => after.cyclesPerFrame = session.cyclesPerFrame) (loadProgram session path) := by
  unfold loadProgram
  refine (gives_any _).bind fun progress _ => ?_
  extract_lets loaded
  refine (gives_any _).bind fun _ _ => (gives_any _).bind fun _ _ => ?_
  split
  · exact gives_pure (loadFrom_cyclesPerFrame session _ path)
  · exact (gives_any _).bind fun _ _ => gives_throw _

theorem holdKeys_cyclesPerFrame (session : Session) (names : Answer String) :
    Gives (fun after => after.cyclesPerFrame = session.cyclesPerFrame) (holdKeys session names) := by
  unfold holdKeys
  extract_lets hold
  have holds (done : Unit) : Gives (fun after : Session =>
      after.cyclesPerFrame = session.cyclesPerFrame) (hold done) := by
    unfold hold
    dsimp only
    refine (gives_any _).bind fun _ _ => (gives_any _).bind fun keys _ => ?_
    refine gives_foldlM (fun current key kept => ?_) ?_ keys
    · exact (gives_any _).bind fun _ _ => gives_pure kept
    · rfl
  split
  · exact (gives_any _).bind fun done _ => holds done
  · exact holds ()

/-- A session that is ready for its loop has frames of the size that the settings of the run ask for. -/
theorem prepare_frameSize {options : Options} {progress later : Progress} {settings : Settings}
    {ready : Session} (prepared : outcome (prepare options) progress = (.ok (settings, ready), later)) :
    (∃ noted, outcome (settingsOf options) progress = (.ok settings, noted)) ∧
      ready.cyclesPerFrame = settings.frameSize := by
  obtain ⟨found, noted, read, goes⟩ := outcome_bind_ok prepared
  have holds := @Gives.given _ (fun reached : Settings × Session =>
    reached.1 = found ∧ reached.2.cyclesPerFrame = found.frameSize) _ ?_ _ _ _ goes
  · obtain rfl : settings = found := holds.1
    exact ⟨⟨noted, read⟩, holds.2⟩
  · refine (gives_any _).bind fun _ _ => ?_
    refine (makeSession_frameSize found).bind fun made sized => ?_
    refine (withRecorder_cyclesPerFrame options found made).bind fun recording kept => ?_
    refine (loadProgram_cyclesPerFrame recording _).bind fun loaded stays => ?_
    refine (holdKeys_cyclesPerFrame loaded options.keys).bind fun ready lasts => ?_
    refine (gives_any _).bind fun _ _ => gives_pure ⟨rfl, ?_⟩
    exact lasts.trans (stays.trans (kept.trans sized))

end ChipEight.CommandLine
