/-
This file shows that nobody who watches a session changes its course. Incidents are told in the middle of
a cycle, a recorder after it, and a host may ask for the state or take the flag to redraw at any time;
the states of the machine are the same as if nobody watched.
-/

import ChipEight.Memory.Dump
import ChipEight.Proofs.Incidents.Keeping
import ChipEight.Proofs.Machine.Accounts
import ChipEight.Proofs.Machine.Lockstep
import ChipEight.Proofs.Recorder.Steady
import ChipEight.Proofs.Session.Redraw

namespace ChipEight

namespace Incidents

/-- Incidents that are told reports one after another, up to the first that cannot be put down. -/
def tellAll (incidents : Incidents) : List Report → Incidents × Except Fault Unit
  | [] => (incidents, .ok ())
  | report :: rest =>
      let handled := incidents.handle report
      match handled.result with
      | .error fault => (handled.incidents, .error fault)
      | .ok _ => handled.incidents.tellAll rest

/-- Where the bound is a whole number all reports are put down. -/
theorem Whole.tellAll {incidents : Incidents} (whole : incidents.Whole) (reports : List Report) :
    incidents.tellAll reports = (incidents.handleAll reports, .ok ()) ∧
      (incidents.handleAll reports).Whole := by
  induction reports generalizing incidents with
  | nil => exact ⟨rfl, whole⟩
  | cons report rest ih =>
      obtain ⟨handled, stays⟩ := whole.handle report
      obtain ⟨told, kept⟩ := ih stays
      refine ⟨?_, kept⟩
      unfold Incidents.tellAll
      dsimp only
      rw [handled]
      exact told

end Incidents

/-- Where there are no incidents there are none afterwards. -/
theorem Notice.deliver_none (notices : List Notice) : (deliver none notices).1 = none := by
  induction notices with
  | nil => rfl
  | cons notice rest ih => exact ih

namespace Machine

/-- The machine where its cycle complains: of its counter, or of the word that it performs. -/
def complaining (machine : Machine) : Machine :=
  match machine.begun.counterComplaint? with
  | some complaint => machine.begun.blame complaint
  | none => machine.begun.performed.machine

/-- What comes of a cycle whose complaints are told as they are made. -/
structure ToldCycle where
  machine : Machine
  incidents : Option Incidents
  result : Except Fault Unit

/-- A cycle whose complaints are told as they are made, if there are incidents to put them down with. A
complaint that cannot be put down cuts the cycle short. -/
def cycleTold (machine : Machine) : Option Incidents → ToldCycle
  | none => ⟨machine.cycle.machine, none, machine.cycle.result⟩
  | some incidents =>
      match incidents.tellAll (Notice.reports machine.cycle.events) with
      | (told, .ok ()) => ⟨machine.cycle.machine, some told, machine.cycle.result⟩
      | (told, .error fault) => ⟨machine.complaining, some told, .error fault⟩

/-- The machine without its flag to redraw. -/
def lowered (machine : Machine) : Machine := { machine with redraw := false }

/-- The flag to redraw raised, and all else left alone. -/
def raising : Alteration := ⟨id, id, true⟩

/-- Where reports are put down a cycle takes its course, and the incidents are those that a host has when
it is told after the cycle. -/
theorem cycleTold_whole (machine : Machine) {incidents : Option Incidents}
    (whole : ∀ kept, incidents = some kept → kept.Whole) :
    let told := (Notice.deliver incidents (machine.cycle.events.map .machine)).1
    machine.cycleTold incidents = ⟨machine.cycle.machine, told, machine.cycle.result⟩ ∧
      ∀ kept, told = some kept → kept.Whole := by
  cases incidents with
  | none =>
      rw [Notice.deliver_none]
      exact ⟨rfl, nofun⟩
  | some incidents =>
      obtain ⟨told, stays⟩ :=
        (whole incidents rfl).tellAll (Notice.reports machine.cycle.events)
      rw [Notice.deliver_reports]
      refine ⟨?_, ?_⟩
      · unfold cycleTold
        dsimp only
        rw [told]
      · rintro _ ⟨⟩
        exact stays

theorem altered_raising (machine : Machine) :
    machine.altered raising = { machine.lowered with redraw := true } := by
  unfold altered raising
  rw [Bool.or_true]
  rfl

theorem raising_spares (word : Int) : raising.Spares word := ⟨fun _ => rfl, fun _ => rfl⟩

variable {first second : Machine}

/-- Machines that differ in their flags to redraw only go through a cycle alike. -/
theorem cycle_lowered (same : first.lowered = second.lowered) :
    first.cycle.machine.lowered = second.cycle.machine.lowered ∧
      first.cycle.result = second.cycle.result := by
  have raised : first.altered raising = second.altered raising := by
    rw [altered_raising, altered_raising, same]
  have cycles := congrArg cycle raised
  rw [cycle_altered _ fun execution _ => raising_spares execution.1,
    cycle_altered _ fun execution _ => raising_spares execution.1] at cycles
  have results := congrArg Outcome.result cycles
  exact ⟨congrArg (fun outcome => outcome.machine.lowered) cycles, results⟩

theorem load_lowered (same : first.lowered = second.lowered) (program : Option (List UInt8)) :
    (first.load program).machine.lowered = (second.load program).machine.lowered := by
  have raised : first.altered raising = second.altered raising := by
    rw [altered_raising, altered_raising, same]
  have loads := congrArg (fun machine => load machine program) raised
  rw [load_altered _ rfl, load_altered _ rfl] at loads
  exact congrArg (fun outcome => outcome.machine.lowered) loads

theorem reset_lowered (same : first.lowered = second.lowered) : first.reset = second.reset := by
  have memory := congrArg Machine.memory same
  have display := congrArg Machine.display same
  have random := congrArg Machine.random same
  change first.memory = second.memory at memory
  change first.display = second.display at display
  change first.random = second.random at random
  unfold reset
  rw [memory, display, random]

end Machine

namespace Session

/-- What a host asks of a session without changing it. -/
inductive Query where
  | state
  | summary
  | details
  | isRunning
  | isHealthy
  | tone
  | cycleCount
  | frameCount
  | picture
  | dump (start length : Int)
  deriving DecidableEq, Repr

def answer (session : Session) : Query → Value
  | .state => Value.record session.state
  | .summary => .text session.summary
  | .details => .text session.machine.details
  | .isRunning => .bool session.isRunning
  | .isHealthy => .bool session.machine.isHealthy
  | .tone => .bool session.machine.tone
  | .cycleCount => .int session.machine.cycles
  | .frameCount => .int session.frames
  | .picture => .ints (session.machine.display.buffer.map fun byte => (byte.toNat : Int))
  | .dump start length => .text (session.machine.memory.dump start length)

/-- A step of a host that may also watch: it acts, or it asks. -/
inductive Step where
  | act (action : Action)
  | ask (query : Query)
  deriving DecidableEq, Repr

/-- The steps that drive the machine; the others only watch it. -/
def Step.drives : Step → Bool
  | act .consumeRedraw => false
  | act _ => true
  | ask _ => false

/-- What a host sees of a step: the state of the machine and whether the action failed, or whether to
redraw the display, or an answer. -/
inductive Sight where
  | state (machine : Machine) (result : Except Fault Unit)
  | redraw (wanted : Bool)
  | answer (value : Value)

/-- The state of the machine that is seen, if it is one. -/
def Sight.state? : Sight → Option (Machine × Except Fault Unit)
  | state machine result => some (machine, result)
  | _ => none

end Session

/-- A session and the incidents that its complaints are told to, if there are any. -/
structure Observed where
  session : Session
  incidents : Option Incidents

namespace Observed

open Session

/-- A cycle of the machine, whose complaints are told, and a record of the state after it. -/
def advance (observed : Observed) : Observed × Except Fault Unit :=
  let told := observed.session.machine.cycleTold observed.incidents
  let after := { observed.session with machine := told.machine }
  match told.result with
  | .error fault => (⟨after, told.incidents⟩, .error fault)
  | .ok () => (⟨after.recorded.1, told.incidents⟩, after.recorded.2)

def advanceMany (observed : Observed) : Nat → Observed × Except Fault Unit
  | 0 => (observed, .ok ())
  | count + 1 =>
      if observed.session.machine.halted then (observed, .ok ())
      else
        match observed.advance with
        | (next, .ok ()) => next.advanceMany count
        | failed => failed

def runFrame (observed : Observed) : Observed × Except Fault Unit :=
  match observed.session.cyclesPerFrame.whole? with
  | none => (observed, .error .wrongKind)
  | some count =>
      match observed.advanceMany count.toNat with
      | (ran, .ok ()) =>
          (⟨{ ran.session with frames := ran.session.frames + 1 }, ran.incidents⟩, .ok ())
      | failed => failed

/-- What comes of an action. Only cycles make complaints. -/
def act (observed : Observed) : Action → Observed × Except Fault Unit
  | .cycle => if observed.session.started then observed.advance else (observed, .ok ())
  | .runFrame => observed.runFrame
  | action => (⟨observed.session.act action, observed.incidents⟩, .ok ())

/-- What comes of a step and what is seen of it. -/
def take (observed : Observed) : Step → Observed × Sight
  | .act .consumeRedraw =>
      ((observed.act .consumeRedraw).1, .redraw observed.session.consumeRedraw.1)
  | .act action =>
      let (after, result) := observed.act action
      (after, .state after.session.machine.lowered result)
  | .ask query => (observed, .answer (observed.session.answer query))

/-- What is seen of some steps. -/
def sights (observed : Observed) : List Step → List Sight
  | [] => []
  | step :: rest => (observed.take step).2 :: (observed.take step).1.sights rest

/-- The states of the machine that are seen, and which actions failed. -/
def states (observed : Observed) (steps : List Step) : List (Machine × Except Fault Unit) :=
  (observed.sights steps).filterMap Sight.state?

/-- Nobody who watches fails: reports are put down, and a recorder takes all snapshots. -/
structure Passive (observed : Observed) : Prop where
  incidents : ∀ kept, observed.incidents = some kept → kept.Whole
  recorder : ∀ recorder, observed.session.recorder = some recorder → recorder.Steady

/-- Two sessions that are watched in different ways, with machines that differ in their flags to redraw
only. -/
structure Alike (first second : Observed) : Prop where
  machine : first.session.machine.lowered = second.session.machine.lowered
  started : first.session.started = second.session.started
  size : first.session.cyclesPerFrame = second.session.cyclesPerFrame
  before : first.Passive
  beside : second.Passive

variable {observed first second : Observed}

/-- A cycle that is watched takes its course. -/
theorem Passive.advance (passive : observed.Passive) :
    ∃ recorder incidents, observed.advance =
        (⟨{ observed.session with
            machine := observed.session.machine.cycle.machine
            recorder := recorder }, incidents⟩, observed.session.machine.cycle.result) ∧
      observed.advance.1.Passive := by
  obtain ⟨told, whole⟩ := observed.session.machine.cycleTold_whole passive.incidents
  generalize (Notice.deliver _ _).1 = incidents at told whole
  obtain ⟨recorder, recorded, steady⟩ := @recorded_steady
    { observed.session with machine := observed.session.machine.cycle.machine } passive.recorder
  unfold Observed.advance
  rw [told]
  dsimp only
  cases observed.session.machine.cycle.result with
  | error fault => exact ⟨_, incidents, rfl, whole, passive.recorder⟩
  | ok value =>
      dsimp only
      rw [recorded]
      exact ⟨recorder, incidents, rfl, whole, steady⟩

/-- Sessions stay alike if they change together and keep their recorders. -/
theorem Alike.moved (alike : first.Alike second) {one other : Session}
    (machine : one.machine.lowered = other.machine.lowered) (started : one.started = other.started)
    (size : one.cyclesPerFrame = other.cyclesPerFrame)
    (kept : one.recorder = first.session.recorder)
    (held : other.recorder = second.session.recorder) :
    Alike ⟨one, first.incidents⟩ ⟨other, second.incidents⟩ where
  machine := machine
  started := started
  size := size
  before := ⟨alike.before.incidents, fun recorder found =>
    alike.before.recorder recorder (kept.symm.trans found)⟩
  beside := ⟨alike.beside.incidents, fun recorder found =>
    alike.beside.recorder recorder (held.symm.trans found)⟩

theorem Alike.advance (alike : first.Alike second) :
    first.advance.1.Alike second.advance.1 ∧ first.advance.2 = second.advance.2 := by
  obtain ⟨recorder, incidents, goes, passive⟩ := alike.before.advance
  obtain ⟨other, others, follows, still⟩ := alike.beside.advance
  obtain ⟨machine, result⟩ := Machine.cycle_lowered alike.machine
  refine ⟨⟨?_, ?_, ?_, passive, still⟩, ?_⟩
  · rw [goes, follows]
    exact machine
  · rw [goes, follows]
    exact alike.started
  · rw [goes, follows]
    exact alike.size
  · rw [goes, follows]
    exact result

theorem Alike.advanceMany (alike : first.Alike second) (count : Nat) :
    (first.advanceMany count).1.Alike (second.advanceMany count).1 ∧
      (first.advanceMany count).2 = (second.advanceMany count).2 := by
  induction count generalizing first second with
  | zero => exact ⟨alike, rfl⟩
  | succ count ih =>
      have halted := congrArg Machine.halted alike.machine
      change first.session.machine.halted = second.session.machine.halted at halted
      obtain ⟨next, result⟩ := alike.advance
      unfold Observed.advanceMany
      rw [halted]
      split
      · exact ⟨alike, rfl⟩
      · generalize first.advance = one at next result
        generalize second.advance = other at next result
        obtain ⟨after, ends⟩ := one
        obtain ⟨beside, same⟩ := other
        cases result
        cases ends with
        | error fault => exact ⟨next, rfl⟩
        | ok value => exact ih next

theorem Alike.runFrame (alike : first.Alike second) :
    first.runFrame.1.Alike second.runFrame.1 ∧ first.runFrame.2 = second.runFrame.2 := by
  unfold Observed.runFrame
  rw [alike.size]
  cases second.session.cyclesPerFrame.whole? with
  | none => exact ⟨alike, rfl⟩
  | some count =>
      obtain ⟨ran, result⟩ := alike.advanceMany count.toNat
      dsimp only
      generalize first.advanceMany count.toNat = one at ran result
      generalize second.advanceMany count.toNat = other at ran result
      obtain ⟨after, ends⟩ := one
      obtain ⟨beside, same⟩ := other
      cases result
      cases ends with
      | error fault => exact ⟨ran, rfl⟩
      | ok value => exact ⟨ran.moved ran.machine ran.started ran.size rfl rfl, rfl⟩

/-- Sessions that are watched in different ways act alike. -/
theorem Alike.act (alike : first.Alike second) (action : Action) :
    (first.act action).1.Alike (second.act action).1 ∧
      (first.act action).2 = (second.act action).2 := by
  cases action with
  | cycle =>
      unfold Observed.act
      dsimp only
      rw [alike.started]
      split
      · exact alike.advance
      · exact ⟨alike, rfl⟩
  | runFrame => exact alike.runFrame
  | load program =>
      exact ⟨alike.moved (Machine.load_lowered alike.machine program) alike.started alike.size
        rfl rfl, rfl⟩
  | reset =>
      have machine := congrArg Machine.lowered (Machine.reset_lowered alike.machine)
      unfold Observed.act Session.act Session.reset
      exact ⟨alike.moved machine rfl alike.size rfl rfl, rfl⟩
  | start => exact ⟨alike.moved alike.machine rfl alike.size rfl rfl, rfl⟩
  | stop => exact ⟨alike.moved alike.machine rfl alike.size rfl rfl, rfl⟩
  | press code =>
      have machine := congrArg (fun machine => machine.press code) alike.machine
      exact ⟨alike.moved machine alike.started alike.size rfl rfl, rfl⟩
  | release code =>
      have machine := congrArg (fun machine => machine.release code) alike.machine
      exact ⟨alike.moved machine alike.started alike.size rfl rfl, rfl⟩
  | consumeRedraw =>
      exact ⟨alike.moved alike.machine alike.started alike.size rfl rfl, rfl⟩

/-- A step that drives the machine shows its state, and shows the same to all who watch. -/
theorem Alike.drive (alike : first.Alike second) {step : Step} (drives : step.drives = true) :
    (first.take step).1.Alike (second.take step).1 ∧
      ∃ state, (first.take step).2.state? = some state ∧ (second.take step).2.state? = some state := by
  cases step with
  | ask query => cases drives
  | act action =>
      obtain ⟨after, result⟩ := alike.act action
      have state : some ((first.act action).1.session.machine.lowered, (first.act action).2) =
          some ((second.act action).1.session.machine.lowered, (second.act action).2) := by
        rw [after.machine, result]
      cases action with
      | consumeRedraw => cases drives
      | load | reset | start | stop | press | release | cycle | runFrame =>
          exact ⟨after, _, rfl, state.symm⟩

/-- A step that only watches shows no state and leaves the session alike. -/
theorem Alike.watch (alike : first.Alike second) {step : Step} (watches : step.drives = false) :
    (first.take step).1.Alike second ∧ (first.take step).2.state? = none := by
  cases step with
  | ask query => exact ⟨alike, rfl⟩
  | act action =>
      cases action with
      | consumeRedraw =>
          exact ⟨alike.moved alike.machine alike.started alike.size rfl rfl, rfl⟩
      | load | reset | start | stop | press | release | cycle | runFrame => cases watches

theorem states_cons (observed : Observed) (step : Step) (rest : List Step) :
    observed.states (step :: rest) =
      (observed.take step).2.state?.toList ++ (observed.take step).1.states rest := by
  change ((observed.take step).2 :: (observed.take step).1.sights rest).filterMap Sight.state? = _
  cases state : (observed.take step).2.state? with
  | none =>
      rw [List.filterMap_cons_none state]
      rfl
  | some shown =>
      rw [List.filterMap_cons_some state]
      rfl

/-- The states are the same also for one who does not watch in between. -/
theorem Alike.states (alike : first.Alike second) (steps : List Step) :
    first.states steps = second.states (steps.filter Step.drives) := by
  induction steps generalizing first second with
  | nil => rfl
  | cons step rest ih =>
      cases drives : step.drives with
      | true =>
          obtain ⟨after, state, one, other⟩ := alike.drive drives
          rw [List.filter_cons_of_pos drives, states_cons, states_cons, one, other, ih after]
      | false =>
          obtain ⟨after, quiet⟩ := alike.watch drives
          rw [List.filter_cons_of_neg (by rw [drives]; nofun), states_cons, quiet, ih after]
          rfl

/-- The incidents that complaints are told to, the recorder, the questions of a host and its taking of the
flag to redraw do not change the course of a session: without them the machine goes through the same
states, and the same actions fail. The bound on the incidents may be any whole number, and anybody may
watch them and fail. The recorder may have any limit, any ratio and any list of names to pick out. -/
theorem observers_passive (session : Session) {incidents : Option Incidents}
    {recorder : Option Recorder}
    (bounded : ∀ kept, incidents = some kept → ∃ bound : Int, kept.bound = .int bound)
    (made : ∀ writer, recorder = some writer → ∃ (limit : Value) (ratio : Int) (filter : Value),
      (filter = .null ∨ ∃ names, filter = .list names) ∧
        Recorder.make limit (.int ratio) filter = .ok writer)
    (steps : List Step) :
    states ⟨{ session with recorder := recorder }, incidents⟩ steps =
      states ⟨{ session with recorder := none }, none⟩ (steps.filter Step.drives) := by
  have steady : ∀ writer, recorder = some writer → writer.Steady := by
    intro writer found
    obtain ⟨limit, ratio, filter, picks, makes⟩ := made writer found
    exact Recorder.make_steady picks makes
  have alike : Alike ⟨{ session with recorder := recorder }, incidents⟩
      ⟨{ session with recorder := none }, none⟩ :=
    ⟨rfl, rfl, rfl, ⟨bounded, steady⟩, ⟨nofun, nofun⟩⟩
  exact alike.states steps

/-- A watcher that fails, a bound and a limit of nothing at all, a ratio of zero and a list of names are
in nobody's way. -/
theorem observers_passive_failing :
    let session : Session := ⟨[], .new (.blank 8 4) (.ofSeed 12345), .int 2, .null, false, 0, none⟩
    let alarm := Watcher.steady "alarm" (some .noMember) (by rintro _ ⟨⟩; rfl)
    let incidents : Incidents := ⟨true, .int 0, [], [(.decode, alarm)]⟩
    let program : Action := .load (some [0x50, 0x0f, 0xff, 0xff])
    ∃ recorder, Recorder.make (.int 0) (.int 0) (.list [.text "V0"]) = .ok recorder ∧
      states ⟨{ session with recorder := some recorder }, some incidents⟩
          [.act program, .ask .state, .act .start, .act .cycle, .act .consumeRedraw, .act .runFrame] =
        states ⟨session, none⟩ [.act program, .act .start, .act .cycle, .act .runFrame] := by
  intro session alarm incidents program
  have makes : Recorder.make (.int 0) (.int 0) (.list [.text "V0"]) =
      .ok ⟨some 0, .int 0, .int 1, .list [.text "V0"], #[], .list [], .int 0, .null, .null, []⟩ := by
    unfold Recorder.make Value.greater
    rw [Value.less_int]
    rfl
  refine ⟨_, makes, ?_⟩
  exact observers_passive session
    (by rintro _ ⟨⟩; exact ⟨0, rfl⟩)
    (by rintro _ ⟨⟩; exact ⟨.int 0, 0, .list [.text "V0"], .inr ⟨_, rfl⟩, makes⟩) _

end Observed

end ChipEight
