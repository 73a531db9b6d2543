/-
This file keeps the accounts of runs: how many complaints and cycles a machine has counted since it
began anew, which of them went to the incidents of the host, and that nothing moves in a machine that
is halted.
-/

import ChipEight.Proofs.Incidents.Keeping
import ChipEight.Proofs.Machine.Counting
import ChipEight.Proofs.Run
import ChipEight.Session
import Mathlib.Data.List.DropRight

namespace ChipEight

/-- The reports that are made of what happens in a machine. -/
def Notice.reports (events : List Event) : List Report :=
  (Event.complaints events).map fun entry => complaintReport entry.1 entry.2

/-- Of all that happens in a machine a host is handed just the reports of complaints. -/
theorem Notice.deliver_reports (incidents : Incidents) (events : List Event) :
    (deliver (some incidents) (events.map .machine)).1 =
      some (incidents.handleAll (reports events)) := by
  induction events generalizing incidents with
  | nil => rfl
  | cons event rest ih =>
      cases event with
      | complaint cause position => exact ih _
      | halted reason => exact ih incidents
      | executed place word status => exact ih incidents
      | nativeCall word => exact ih incidents
      | emptySprite => exact ih incidents
      | unknownKey key x => exact ih incidents
      | indexWrapped x index amount => exact ih incidents
      | ready => exact ih incidents
      | memory note => exact ih incidents
      | display note => exact ih incidents
      | keypad note => exact ih incidents

theorem Event.complaints_keypad (notes : List Keypad.Note) :
    complaints (notes.map Event.keypad) = [] :=
  complaints_map (fun _ => rfl) notes

namespace Machine

/-- Nothing is counted yet. -/
structure Anew (machine : Machine) : Prop where
  awake : machine.halted = false
  errors : machine.errors = 0
  tally : machine.tally = ⟨0, 0, 0⟩
  cycles : machine.cycles = 0

/-- The sum of the counts is the count of all, and so many complaints that the machine is halted are
never passed. -/
structure Accounted (machine : Machine) : Prop where
  sum : machine.errors = machine.tally.total
  few : machine.errors ≤ haltThreshold
  stops : machine.errors = haltThreshold → machine.halted = true

variable {machine : Machine}

theorem Anew.accounted (begins : machine.Anew) : machine.Accounted where
  sum := by rw [begins.errors, begins.tally]; rfl
  few := by rw [begins.errors]; decide
  stops := by
    intro reached
    rw [begins.errors] at reached
    exact absurd reached (by decide)

theorem Accounted.below (accounts : machine.Accounted) (awake : machine.halted = false) :
    machine.errors < haltThreshold := by
  rcases Int.lt_or_eq_of_le accounts.few with below | reached
  · exact below
  · rw [accounts.stops reached] at awake
    cases awake

theorem fresh_anew (memory : Memory) (display : Display) (keypad : Keypad)
    (random : RandomBytes) : (fresh memory display keypad random).Anew :=
  ⟨rfl, rfl, rfl, rfl⟩

/-- After a reset or a program that is taken nothing is counted. -/
theorem serve_anew {request : Request} (renewing : request.renews = true) :
    (machine.serve request).machine.Anew := by
  cases request with
  | load program =>
      have accepted := Option.isNone_iff_eq_none.mp renewing
      simp only [serve, load, accepted]
      exact ⟨rfl, rfl, rfl, rfl⟩
  | reset => exact fresh_anew _ _ _ _
  | press code => cases renewing
  | release code => cases renewing
  | cycle => cases renewing

/-- A request that does not make the machine begin anew is a cycle or touches the keypad only. -/
theorem serve_steady {request : Request} (steady : request.renews = false) :
    request = .cycle ∨ (request ≠ .cycle ∧
      (machine.serve request).machine =
        { machine with keypad := request.turnKey machine.keypad } ∧
      Event.complaints (machine.serve request).events = []) := by
  cases request with
  | load program =>
      right
      refine ⟨by simp, machine.load_refused steady, ?_⟩
      unfold serve load
      dsimp only
      split
      · rfl
      · exact Event.complaints_notes _
  | reset => cases steady
  | press code => exact .inr ⟨by simp, rfl, Event.complaints_keypad _⟩
  | release code => exact .inr ⟨by simp, rfl, Event.complaints_keypad _⟩
  | cycle => exact .inl rfl

/-- A request that does not make the machine begin anew adds to the counts. -/
theorem serve_counted (machine : Machine) {request : Request} (steady : request.renews = false) :
    machine.Counted (machine.serve request).machine
      (Event.complaints (machine.serve request).events) := by
  rcases serve_steady steady with rfl | ⟨-, after, calm⟩
  · exact machine.cycle_counting.1
  · rw [after, calm]
    exact .none rfl rfl

theorem cycle_accounted (accounts : machine.Accounted) : machine.cycle.machine.Accounted := by
  obtain ⟨counted, once, -, -⟩ := machine.cycle_counting
  have sum : machine.cycle.machine.errors = machine.cycle.machine.tally.total := by
    rw [counted.errors, counted.tally, Tally.total_countAll, accounts.sum, Int.natCast_add]
  cases stopped : machine.halted with
  | true =>
      have stays : machine.cycle = ⟨{ machine with tone := false }, .ok (), []⟩ := by
        unfold cycle
        rw [if_pos stopped]
      refine ⟨sum, ?_, ?_⟩
      · rw [stays]
        exact accounts.few
      · rw [stays]
        exact fun _ => stopped
  | false =>
      have below := accounts.below stopped
      have errors := counted.errors
      refine ⟨sum, by omega, ?_⟩
      intro reached
      exact cycle_stops below (Int.le_of_eq reached.symm)

/-- Every request keeps the accounts. -/
theorem serve_accounted (accounts : machine.Accounted) (request : Request) :
    (machine.serve request).machine.Accounted := by
  by_cases renewing : request.renews = true
  · exact (serve_anew renewing).accounted
  · rcases serve_steady (Bool.not_eq_true _ ▸ renewing) with rfl | ⟨-, after, -⟩
    · exact cycle_accounted accounts
    · rw [after]
      exact ⟨accounts.sum, accounts.few, accounts.stops⟩

theorem serveAll_accounted (accounts : machine.Accounted) (requests : List Request) :
    (machine.serveAll requests).Accounted :=
  @serveAll_keeps Accounted (fun _ request held => serve_accounted held request) machine requests
    accounts

theorem Reachable.accounted (reached : Reachable machine) : machine.Accounted := by
  induction reached with
  | new display random wide high => exact (fresh_anew _ _ _ _).accounted
  | serve request _ ih => exact serve_accounted ih request

/-- Over requests of which none makes the machine begin anew the counts go on. -/
theorem serveAll_counted (machine : Machine) (requests : List Request)
    (steady : ∀ request ∈ requests, request.renews = false) :
    machine.Counted (machine.serveAll requests)
      (Event.complaints (machine.happenings requests)) := by
  induction requests generalizing machine with
  | nil => exact .none rfl rfl
  | cons request rest ih =>
      have first := machine.serve_counted (steady request List.mem_cons_self)
      have others := ih (machine.serve request).machine
        (fun later member => steady later (List.mem_cons_of_mem request member))
      change machine.Counted _ (Event.complaints ((machine.serve request).events ++ _))
      rw [Event.complaints_append]
      exact first.trans others

/-- A machine counts those of its cycles at which it is not halted. -/
theorem serve_cycles (accounts : machine.Accounted) {request : Request}
    (steady : request.renews = false) :
    (machine.serve request).machine.cycles =
      machine.cycles + if request = .cycle ∧ machine.halted = false then 1 else 0 := by
  rcases serve_steady steady with rfl | ⟨other, after, -⟩
  · obtain ⟨-, -, stands, counts⟩ := machine.cycle_counting
    cases stopped : machine.halted with
    | true => exact stands stopped
    | false => exact counts stopped (accounts.below stopped)
  · rw [after, if_neg (fun both => other both.1)]
    rfl

theorem serveAll_cycles (accounts : machine.Accounted) (requests : List Request)
    (steady : ∀ request ∈ requests, request.renews = false) :
    (machine.serveAll requests).cycles = machine.cycles + machine.activeCycles requests := by
  induction requests generalizing machine with
  | nil => rfl
  | cons request rest ih =>
      have later := ih (serve_accounted accounts request)
        (fun later member => steady later (List.mem_cons_of_mem request member))
      rw [serve_cycles accounts (steady request List.mem_cons_self)] at later
      rw [serveAll_cons, later, activeCycles, Nat.add_assoc]

/-- In a machine that is halted a request touches at most the keypad and the tone. -/
theorem serve_halted (stopped : machine.halted = true) {request : Request}
    (steady : request.renews = false) :
    (machine.serve request).machine = { machine with
      keypad := request.turnKey machine.keypad
      tone := machine.tone && request != .cycle } := by
  rcases serve_steady steady with rfl | ⟨other, after, -⟩
  · change machine.cycle.machine = _
    unfold cycle
    rw [if_pos stopped]
    simp [Request.turnKey]
  · have plays : (request != .cycle) = true := bne_iff_ne.mpr other
    rw [after, plays, Bool.and_true]

theorem serveAll_halted (stopped : machine.halted = true) (requests : List Request)
    (steady : ∀ request ∈ requests, request.renews = false) :
    machine.serveAll requests = { machine with
      keypad := requests.foldl (fun keypad request => request.turnKey keypad) machine.keypad
      tone := machine.tone && requests.all (· != .cycle) } := by
  induction requests generalizing machine with
  | nil => simp
  | cons request rest ih =>
      have first := serve_halted stopped (steady request List.mem_cons_self)
      rw [serveAll_cons, first, ih]
      · simp only [List.foldl_cons, List.all_cons, Bool.and_assoc]
      · exact stopped
      · exact fun later member => steady later (List.mem_cons_of_mem request member)

/-- The requests up to the last one that made the machine begin anew. -/
def untilAnew (requests : List Request) : List Request :=
  requests.rdropWhile fun request => !request.renews

/-- The requests after the last one that made the machine begin anew. -/
def sinceAnew (requests : List Request) : List Request :=
  requests.rtakeWhile fun request => !request.renews

theorem sinceAnew_steady (requests : List Request) :
    ∀ request ∈ sinceAnew requests, request.renews = false := by
  intro request member
  have steady := List.mem_rtakeWhile_imp member
  exact (Bool.not_eq_true' _).mp steady

theorem serveAll_sinceAnew (machine : Machine) (requests : List Request) :
    machine.serveAll requests =
      (machine.serveAll (untilAnew requests)).serveAll (sinceAnew requests) := by
  rw [← serveAll_append]
  exact congrArg machine.serveAll List.rdropWhile_append_rtakeWhile.symm

/-- The last of the requests made the machine begin anew, unless there are none. -/
theorem untilAnew_anew (begins : machine.Anew) (requests : List Request) :
    (machine.serveAll (untilAnew requests)).Anew := by
  by_cases empty : untilAnew requests = []
  · rw [empty]
    exact begins
  · have last := List.rdropWhile_last_not _ _ empty
    rw [Bool.not_eq_true, Bool.not_eq_false'] at last
    have renewing : ((untilAnew requests).getLast empty).renews = true := last
    rw [← List.dropLast_append_getLast empty, serveAll_append]
    exact serve_anew renewing

/-- In every run the errors are the sum of their three counts, and as many as the reports that the
host was handed since the machine began anew. A cycle adds at most one, the tenth of them halts the
machine in the cycle that adds it, and there are never more. The cycles are those that were asked for
since then while the machine was not halted. Once it is halted, only keys and the tone change until it
begins anew. -/
theorem run_accounted (display : Display) (random : RandomBytes) (requests : List Request) :
    let begun := (Machine.new display random).serveAll (untilAnew requests)
    let since := sinceAnew requests
    let machine := (Machine.new display random).serveAll requests
    (machine.errors = machine.tally.total ∧
      machine.errors = (Notice.reports (begun.happenings since)).length ∧
      (∀ report ∈ Notice.reports (begun.happenings since), report.level = .warning) ∧
      ∀ incidents, (Notice.deliver (some incidents) ((begun.happenings since).map .machine)).1 =
        some (incidents.handleAll (Notice.reports (begun.happenings since)))) ∧
    (machine.cycle.machine.errors = machine.errors ∨
      machine.cycle.machine.errors = machine.errors + 1) ∧
    machine.errors ≤ 10 ∧ (machine.errors = 10 → machine.halted = true) ∧
    (machine.errors < 10 → machine.cycle.machine.errors = 10 →
      machine.cycle.machine.halted = true) ∧
    machine.cycles = begun.activeCycles since ∧
    (machine.halted = true → ∀ more : List Request,
      (∀ request ∈ more, request.renews = false) → machine.serveAll more = { machine with
        keypad := more.foldl (fun keypad request => request.turnKey keypad) machine.keypad
        tone := machine.tone && more.all (· != .cycle) }) := by
  intro begun since machine
  have steady : ∀ request ∈ since, request.renews = false := sinceAnew_steady requests
  have begins : begun.Anew := untilAnew_anew (fresh_anew _ _ _ _) requests
  have whole : machine = begun.serveAll since := serveAll_sinceAnew _ requests
  have accounts : machine.Accounted := serveAll_accounted (fresh_anew _ _ _ _).accounted requests
  have counted := begun.serveAll_counted since steady
  have cycles := serveAll_cycles begins.accounted since steady
  rw [← whole] at counted cycles
  refine ⟨⟨accounts.sum, ?_, ?_, ?_⟩, ?_, accounts.few, accounts.stops, ?_, ?_, ?_⟩
  · rw [counted.errors, begins.errors, Int.zero_add]
    simp only [Notice.reports, List.length_map]
  · intro report member
    obtain ⟨entry, -, rfl⟩ := List.mem_map.mp member
    rfl
  · exact fun incidents => Notice.deliver_reports incidents _
  · obtain ⟨added, once, -, -⟩ := machine.cycle_counting
    have errors := added.errors
    omega
  · intro below reached
    exact cycle_stops below (Int.le_of_eq reached.symm)
  · rw [cycles, begins.cycles, Nat.zero_add]
  · exact fun stopped more => serveAll_halted stopped more

/-- Without a program the first word halts the machine. The second cycle is not counted, and a key
and a third cycle change only the keypad and the tone. -/
theorem run_accounted_idle :
    let machine := (Machine.new (.blank 8 4) (.ofSeed 12345)).serveAll [.cycle, .cycle]
    machine.halted = true ∧ machine.errors = machine.tally.total ∧
      machine.serveAll [.press 3, .cycle] =
        { machine with keypad := machine.keypad.press 3, tone := false } := by
  intro machine
  obtain ⟨⟨sum, -⟩, -, -, -, -, -, rests⟩ :=
    run_accounted (.blank 8 4) (.ofSeed 12345) [.cycle, .cycle]
  have stopped : machine.halted = true := by decide +kernel
  have rested := rests stopped [.press 3, .cycle] (by decide)
  have keys (keypad : Keypad) :
      [Request.press 3, .cycle].foldl (fun keypad request => request.turnKey keypad) keypad =
        keypad.press 3 := rfl
  have silent (tone : Bool) : (tone && [Request.press 3, .cycle].all (· != .cycle)) = false :=
    Bool.and_false tone
  rw [keys, silent] at rested
  exact ⟨stopped, sum, rested⟩

end Machine

end ChipEight
