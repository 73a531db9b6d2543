/-
This file shows that what a run does after its loop does not ask what files hold. It writes records and
files and makes directories, and how that goes depends on the layout of the files alone.
-/

import ChipEight.CommandLine
import ChipEight.Proofs.Files.Layout

namespace ChipEight

open Files

namespace Journal

theorem write_layout (journal : Journal) (files : Files) (records : List Record) :
    (journal.write files records).1.layout = files.layout := by
  unfold write
  generalize journal.sinks = sinks
  generalize "" = shown
  induction sinks generalizing files shown with
  | nil => rfl
  | cons sink rest ih =>
      rw [List.foldl_cons]
      cases sink with
      | console => exact ih files _
      | file path level => exact (ih _ _).trans (addText_layout files path _)

end Journal

namespace Recorder

/-- What is left when a history was saved, and how that ended. -/
def Saved.outline (saved : Saved) : (List String → Option Bool) × Except Fault Bool × List Note :=
  (saved.files.layout, saved.result, saved.notes)

theorem Saved.outline_eq {first second : Saved} (same : first.outline = second.outline) :
    first.files.layout = second.files.layout ∧ first.result = second.result ∧
      first.notes = second.notes := by
  obtain ⟨layouts, others⟩ := Prod.ext_iff.mp same
  exact ⟨layouts, Prod.ext_iff.mp others⟩

variable {first second : Files}

theorem saveFailure_outline (same : first.layout = second.layout) (fault : Fault) :
    (saveFailure first fault).outline = (saveFailure second fault).outline := by
  unfold saveFailure
  split <;> exact Prod.ext same rfl

theorem writeContent_outline (same : first.layout = second.layout) (path : String) (format : Value)
    (content : Content) (result : Except Fault Unit) :
    (writeContent first path format content result).outline =
      (writeContent second path format content result).outline := by
  have written := Files.write_layout same path content
  obtain ⟨one, ones⟩ : ∃ one, first.write path content = one := ⟨_, rfl⟩
  obtain ⟨other, others⟩ : ∃ other, second.write path content = other := ⟨_, rfl⟩
  rw [ones, others] at written
  unfold writeContent
  rw [ones, others]
  cases one with
  | error fault =>
      cases other with
      | ok twin => cases written
      | error twin =>
          obtain rfl : fault = twin := Except.error.inj written
          exact saveFailure_outline same fault
  | ok made =>
      cases other with
      | error twin => cases written
      | ok twin =>
          have layouts : made.layout = twin.layout := Except.ok.inj written
          cases result with
          | error fault => exact saveFailure_outline layouts fault
          | ok done => exact Prod.ext layouts rfl

theorem write_outline (recorder : Recorder) (depths : Depths) (same : first.layout = second.layout)
    (path : String) (format : Value) :
    (recorder.write depths first path format).outline =
      (recorder.write depths second path format).outline := by
  unfold write
  split
  · exact saveFailure_outline same _
  · split
    · split <;> exact writeContent_outline same _ _ _ _
    · exact writeContent_outline same _ _ _ _
    · split
      · exact saveFailure_outline same _
      · exact writeContent_outline same _ _ _ _
    · exact Prod.ext same rfl

/-- A history is saved alike in files with the same layout. -/
theorem save_outline (recorder : Recorder) (depths : Depths) (same : first.layout = second.layout)
    (name : String) (format : Value) :
    (recorder.save depths first (.text name) format).outline =
      (recorder.save depths second (.text name) format).outline := by
  obtain ⟨layouts, results⟩ := Made.outline_eq (makeParent_outline name same)
  rw [save, save, results]
  split
  · exact saveFailure_outline layouts _
  · exact recorder.write_outline depths layouts name format

end Recorder

namespace CommandLine

variable {A B C D : Type}

/-- What comes of a part of a run. -/
def outcome (action : Run A) (progress : Progress) : Except Ending A × Progress :=
  action.run.run progress

theorem outcome_bind (action : Run A) (next : A → Run B) (progress : Progress) :
    outcome (action >>= next) progress =
      match outcome action progress with
      | (.ok value, later) => outcome (next value) later
      | (.error ending, later) => (.error ending, later) := by
  unfold outcome
  rw [ExceptT.run_bind, StateT.run_bind]
  generalize action.run.run progress = ended
  obtain ⟨result, later⟩ := ended
  cases result <;> rfl

/-- Two parts of a run give a value if the first gives one and the second gives one after it. -/
theorem outcome_bind_ok {action : Run A} {next : A → Run B} {progress last : Progress} {value : B}
    (gives : outcome (action >>= next) progress = (.ok value, last)) :
    ∃ first later, outcome action progress = (.ok first, later) ∧
      outcome (next first) later = (.ok value, last) := by
  rw [outcome_bind] at gives
  generalize outcome action progress = ended at gives ⊢
  match ended with
  | (.error ending, later) => cases gives
  | (.ok first, later) => exact ⟨first, later, rfl, gives⟩

/-! ### Parts that end alike -/

/-- Two ends of which one gives what the other does, or both end the run in the same way. The files
that are left have the same layout. -/
inductive Alike (related : A → B → Prop) :
    Except Ending A × Progress → Except Ending B × Progress → Prop where
  | value {one other : Progress} {first : A} {second : B} (given : related first second)
      (layouts : one.files.layout = other.files.layout) :
      Alike related (.ok first, one) (.ok second, other)
  | ended {one other : Progress} (ending : Ending)
      (layouts : one.files.layout = other.files.layout) :
      Alike related (.error ending, one) (.error ending, other)

theorem Alike.bind {related : A → B → Prop} {later : C → D → Prop} {first : Run A} {second : Run B}
    {next : A → Run C} {after : B → Run D} {one other : Progress}
    (alike : Alike related (outcome first one) (outcome second other))
    (follows : ∀ {value twin left right}, related value twin →
      left.files.layout = right.files.layout →
        Alike later (outcome (next value) left) (outcome (after twin) right)) :
    Alike later (outcome (first >>= next) one) (outcome (second >>= after) other) := by
  rw [outcome_bind, outcome_bind]
  generalize outcome first one = left at alike ⊢
  generalize outcome second other = right at alike ⊢
  cases alike with
  | value given layouts => exact follows given layouts
  | ended ending layouts => exact .ended ending layouts

/-- A part of a run does not ask what the files hold. -/
structure Blind (action : Run A) : Prop where
  alike : ∀ {one other : Progress}, one.files.layout = other.files.layout →
    Alike Eq (outcome action one) (outcome action other)

theorem blind_pure (value : A) : Blind (pure value) :=
  ⟨fun same => .value rfl same⟩

theorem Blind.bind {action : Run A} {next : A → Run B} (first : Blind action)
    (second : ∀ value, Blind (next value)) : Blind (action >>= next) :=
  ⟨fun same => (first.alike same).bind fun {value} _ _ _ given layouts =>
    given ▸ (second value).alike layouts⟩

/-- A part of a run that starts with a look at what was done. -/
theorem blind_get {action : Progress → Run A}
    (alike : ∀ {one other : Progress}, one.files.layout = other.files.layout →
      Alike Eq (outcome (action one) one) (outcome (action other) other)) :
    Blind (get >>= action) :=
  ⟨fun same => alike same⟩

theorem blind_ofResult (result : Except Fault A) : Blind (ofResult result) where
  alike same := by
    cases result with
    | error fault => exact .ended (.fault fault) same
    | ok value => exact .value rfl same

theorem blind_write (text : String) : Blind (write text) :=
  ⟨fun same => .value rfl same⟩

theorem blind_say (line : String) : Blind (say line) :=
  blind_write (line ++ "\n")

theorem blind_log (records : List Record) : Blind (log records) where
  alike {one other} same :=
    .value rfl ((one.journal.write_layout one.files records).trans
      (same.trans (other.journal.write_layout other.files records).symm))

/-- Files with the same layout may be kept. -/
theorem keep_alike {first second : Files} (same : first.layout = second.layout)
    (one other : Progress) : Alike Eq (outcome (keep first) one) (outcome (keep second) other) :=
  .value rfl same

theorem blind_sayState (session : Session) : Blind (sayState session) :=
  (blind_say _).bind fun _ => (blind_say _).bind fun _ => (blind_say _).bind fun _ => blind_say _

theorem blind_sayDumps (options : Options) (settings : Settings) (session : Session) :
    Blind (sayDumps options settings session) := by
  unfold sayDumps
  extract_lets dump
  have dumps (done : Unit) : Blind (dump done) := by
    unfold dump
    split
    · exact (blind_say _).bind fun _ => blind_write _
    · exact blind_pure ()
  split
  · exact (blind_say _).bind fun _ => (blind_say _).bind dumps
  · exact dumps ()

theorem blind_saveStates (options : Options) (settings : Settings) (session : Session) :
    Blind (saveStates options settings session) := by
  unfold saveStates
  split
  case h_2 => exact blind_pure ()
  case h_1 recorder path kept asked =>
    refine blind_get fun {one other} same => ?_
    extract_lets first second
    obtain ⟨layouts, results, notes⟩ : first.files.layout = second.files.layout ∧
        first.result = second.result ∧ first.notes = second.notes :=
      Recorder.Saved.outline_eq (recorder.save_outline _ same path _)
    refine (keep_alike layouts one other).bind fun _ after => ?_
    rw [results, notes]
    refine Blind.alike ?_ after
    refine (blind_log _).bind fun _ => (blind_ofResult _).bind fun done => ?_
    split
    · exact blind_log _
    · exact blind_pure ()

theorem blind_draw (plotted : Plot.Plotted) : Blind (draw plotted) := by
  unfold draw
  refine Blind.bind ⟨fun same => .value rfl same⟩ fun _ => (blind_log _).bind fun _ => ?_
  cases plotted.result with
  | error fault => exact ⟨fun same => .ended (.fault fault) same⟩
  | ok path => exact ⟨fun same => .value rfl same⟩

theorem blind_plotAll (options : Options) (settings : Settings) (session : Session) :
    Blind (plotAll options settings session) := by
  unfold plotAll
  refine (blind_ofResult _).bind fun start => ?_
  split
  case h_2 => exact blind_pure ()
  case h_1 start =>
    extract_lets directory pixels resolution plot
    have plots (done : Unit) : Blind (plot done) := by
      unfold plot
      refine (blind_draw _).bind fun _ => ?_
      split
      · exact blind_draw _
      · exact blind_pure ()
    split
    case isFalse => exact plots ()
    case isTrue =>
      refine blind_get fun {one other} same => ?_
      extract_lets first second
      obtain ⟨layouts, results⟩ : first.files.layout = second.files.layout ∧
          first.result = second.result :=
        Made.outline_eq (makeDirectories_outline true directory same)
      refine (keep_alike layouts one other).bind fun _ after => ?_
      rw [results]
      exact ((blind_ofResult _).bind plots).alike after

/-- A run from the end of its loop on. -/
def conclude (options : Options) (settings : Settings) (session : Session) : Run Nat := do
  sayState session
  sayDumps options settings session
  saveStates options settings session
  plotAll options settings session
  say "\nRun Summary:"
  say ("Cycles executed: " ++ toString session.machine.cycles)
  pure (statusOf session.machine)

/-- Nothing from the end of the loop on asks what the files hold. -/
theorem blind_conclude (options : Options) (settings : Settings) (session : Session) :
    Blind (conclude options settings session) := by
  unfold conclude
  refine (blind_sayState session).bind fun _ => ?_
  refine (blind_sayDumps options settings session).bind fun _ => ?_
  refine (blind_saveStates options settings session).bind fun _ => ?_
  refine (blind_plotAll options settings session).bind fun _ => ?_
  exact (blind_say _).bind fun _ => (blind_say _).bind fun _ => blind_pure _

end CommandLine

end ChipEight
