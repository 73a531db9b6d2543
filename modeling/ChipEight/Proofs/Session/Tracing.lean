/-
This file compares the opcodes that a recorder holds with the words that the machine of a session has
executed. Each cycle without a fault is recorded, also one that executes no word; it repeats the last
opcode.
-/

import ChipEight.Proofs.Machine.Invariant
import ChipEight.Proofs.Machine.Tracing
import ChipEight.Proofs.Recorder.Histogram
import ChipEight.Proofs.Recorder.Steady
import ChipEight.Proofs.Session.Frames
import ChipEight.Proofs.Session.Redraw

namespace ChipEight

/-- The word that a notice says was executed. -/
def Notice.word? : Notice → Option Int
  | .machine event => event.word?
  | _ => none

namespace Recorder

/-- A steady recorder holds the opcode of a snapshot behind the others if it has room for it. -/
theorem record_shows {recorder : Recorder} {words : List Int} (steady : recorder.Steady)
    (shows : recorder.Shows words) (machine : Machine)
    (room : ∀ most, recorder.limit = some most → words.length < most) :
    ∃ after, recorder.record (Session.snapshot machine) = (after, .ok ()) ∧ after.Steady ∧
      after.limit = recorder.limit ∧ after.Shows (words ++ [machine.last]) := by
  obtain ⟨after, taken, still⟩ := record_steady steady (snapshot_isSnapshot machine)
  refine ⟨after, taken, still, ?_⟩
  obtain ⟨kept, total, cycle, names, samples, picked, -, -, rfl⟩ := record_done taken
  obtain ⟨fields, rfl, same⟩ := filtered_field picked (show "opcode" ≠ "registers" by decide)
  have size : recorder.history.size = words.length := by
    have lengths := congrArg List.length shows
    simpa using lengths
  have grown : bounded recorder.limit (recorder.history.push (.dict fields)) =
      recorder.history.push (.dict fields) := bounded_push (.dict fields) (size ▸ room)
  have history : (recorder.seeing cycle).history = recorder.history := by
    rw [recorder.seeing_eq]
  have limit : (recorder.seeing cycle).limit = recorder.limit := by
    rw [recorder.seeing_eq]
  refine ⟨limit, ?_⟩
  change (bounded (recorder.seeing cycle).limit
    ((recorder.seeing cycle).history.push (.dict fields))).toList.map _ = _
  rw [limit, history, grown, Array.toList_push, List.map_append, shows, List.map_append]
  change _ ++ [(Value.dict fields).field? "opcode"] = _
  rw [same]
  rfl

end Recorder

namespace Session

/-! ### What is executed and what is recorded -/

/-- The machine at the next cycle, if that ends without a fault. -/
def turn (session : Session) : List Machine :=
  match session.machine.cycle.result with
  | .ok () => [session.machine]
  | .error _ => []

/-- The machines at the cycles of a frame that end without a fault. -/
def turnsMany (session : Session) : Nat → List Machine
  | 0 => []
  | count + 1 =>
      if session.machine.halted then []
      else
        match session.advance.result with
        | .ok () => session.turn ++ session.advance.session.turnsMany count
        | .error _ => session.turn

/-- The machines at the cycles of an action that end without a fault. -/
def turns (session : Session) : Action → List Machine
  | .cycle => if session.started then session.turn else []
  | .runFrame =>
      match session.cyclesPerFrame.whole? with
      | none => []
      | some count => session.turnsMany count.toNat
  | _ => []

def turnsAll (session : Session) : List Action → List Machine
  | [] => []
  | action :: rest => session.turns action ++ (session.act action).turnsAll rest

/-- The words that the machine says it executes in an action. -/
def executed (session : Session) : Action → List Int
  | .cycle => session.cycle.notices.filterMap Notice.word?
  | .runFrame => session.runFrame.notices.filterMap Notice.word?
  | _ => []

def executedAll (session : Session) : List Action → List Int
  | [] => []
  | action :: rest => session.executed action ++ (session.act action).executedAll rest

variable {session : Session}

theorem advance_executed (session : Session) :
    session.advance.notices.filterMap Notice.word? = session.turn.filterMap Machine.word? := by
  have notices : session.advance.notices = session.machine.cycle.events.map .machine := by
    unfold advance
    dsimp only
    split <;> rfl
  have words : (session.machine.cycle.events.map Notice.machine).filterMap Notice.word? =
      session.machine.word?.toList := by
    rw [List.filterMap_map]
    exact session.machine.cycle_words
  rw [notices, words]
  unfold turn
  cases ends : session.machine.cycle.result with
  | ok value =>
      rw [List.filterMap_cons]
      cases session.machine.word? <;> rfl
  | error fault =>
      rw [Machine.word?_of_fault ends]
      rfl

theorem advanceMany_executed (session : Session) (count : Nat) :
    (session.advanceMany count).notices.filterMap Notice.word? =
      (session.turnsMany count).filterMap Machine.word? := by
  induction count generalizing session with
  | zero => rfl
  | succ count ih =>
      unfold advanceMany turnsMany
      by_cases stopped : session.machine.halted = true
      · rw [if_pos stopped, if_pos stopped]
        rfl
      rw [if_neg stopped, if_neg stopped]
      cases ends : session.advance.result with
      | error fault =>
          rw [Turnout.andThen_error ends]
          exact session.advance_executed
      | ok value =>
          rw [Turnout.andThen_ok ends]
          dsimp only
          rw [List.filterMap_append, session.advance_executed, ih, List.filterMap_append]

/-- The words that are executed in an action are those of its cycles. -/
theorem executed_turns (session : Session) (action : Action) :
    session.executed action = (session.turns action).filterMap Machine.word? := by
  cases action with
  | cycle =>
      unfold executed turns cycle
      dsimp only
      split
      · exact session.advance_executed
      · rfl
  | runFrame =>
      cases sized : session.cyclesPerFrame.whole? with
      | none => simp only [executed, turns, runFrame, sized, List.filterMap_nil]
      | some count =>
          simp only [executed, turns, runFrame, sized, ← session.advanceMany_executed]
          unfold Turnout.andThen
          split
          · rfl
          · exact congrArg _ (List.append_nil _)
  | _ => rfl

theorem executedAll_turnsAll (session : Session) (actions : List Action) :
    session.executedAll actions = (session.turnsAll actions).filterMap Machine.word? := by
  induction actions generalizing session with
  | nil => rfl
  | cons action rest ih =>
      unfold executedAll turnsAll
      rw [List.filterMap_append, session.executed_turns, ih]

/-! ### What every machine of a run keeps -/

section Keeps

variable {holds : Machine → Prop}
  (kept : ∀ machine request, holds machine → holds (machine.serve request).machine)
  (lowered : ∀ machine, holds machine → holds { machine with redraw := false })

include kept

theorem turn_keeps (start : holds session.machine) :
    holds session.advance.session.machine ∧
      ∀ machine ∈ session.turn, holds machine ∧ machine.cycle.result = .ok () := by
  refine ⟨?_, ?_⟩
  · rw [session.advance_machine]
    exact kept session.machine .cycle start
  · unfold turn
    cases ends : session.machine.cycle.result with
    | ok value => exact List.forall_mem_singleton.mpr ⟨start, ends⟩
    | error fault => exact List.forall_mem_nil _

theorem turnsMany_keeps (start : holds session.machine) (count : Nat) :
    holds (session.advanceMany count).session.machine ∧
      ∀ machine ∈ session.turnsMany count, holds machine ∧ machine.cycle.result = .ok () := by
  induction count generalizing session with
  | zero => exact ⟨start, List.forall_mem_nil _⟩
  | succ count ih =>
      obtain ⟨after, here⟩ := turn_keeps kept start
      unfold advanceMany turnsMany
      by_cases stopped : session.machine.halted = true
      · rw [if_pos stopped, if_pos stopped]
        exact ⟨start, List.forall_mem_nil _⟩
      rw [if_neg stopped, if_neg stopped]
      cases ends : session.advance.result with
      | error fault =>
          rw [Turnout.andThen_error ends]
          exact ⟨after, here⟩
      | ok value =>
          rw [Turnout.andThen_ok ends]
          obtain ⟨last, others⟩ := ih after
          exact ⟨last, List.forall_mem_append.mpr ⟨here, others⟩⟩

include lowered

theorem turns_keeps (start : holds session.machine) (action : Action) :
    holds (session.act action).machine ∧
      ∀ machine ∈ session.turns action, holds machine ∧ machine.cycle.result = .ok () := by
  cases action with
  | load program => exact ⟨kept _ (.load program) start, List.forall_mem_nil _⟩
  | reset => exact ⟨kept _ .reset start, List.forall_mem_nil _⟩
  | start => exact ⟨start, List.forall_mem_nil _⟩
  | stop => exact ⟨start, List.forall_mem_nil _⟩
  | press code => exact ⟨kept _ (.press code) start, List.forall_mem_nil _⟩
  | release code => exact ⟨kept _ (.release code) start, List.forall_mem_nil _⟩
  | consumeRedraw => exact ⟨lowered _ start, List.forall_mem_nil _⟩
  | cycle =>
      unfold act turns cycle
      dsimp only
      split
      · exact turn_keeps kept start
      · exact ⟨start, List.forall_mem_nil _⟩
  | runFrame =>
      cases sized : session.cyclesPerFrame.whole? with
      | none =>
          simp only [act, turns, runFrame, sized]
          exact ⟨start, List.forall_mem_nil _⟩
      | some count =>
          simp only [act, turns, runFrame, sized]
          obtain ⟨last, all⟩ := turnsMany_keeps kept start count.toNat
          refine ⟨?_, all⟩
          unfold Turnout.andThen
          split <;> exact last

theorem turnsAll_keeps (start : holds session.machine) (actions : List Action) :
    ∀ machine ∈ session.turnsAll actions, holds machine ∧ machine.cycle.result = .ok () := by
  induction actions generalizing session with
  | nil => exact List.forall_mem_nil _
  | cons action rest ih =>
      obtain ⟨after, here⟩ := turns_keeps kept lowered start action
      exact List.forall_mem_append.mpr ⟨here, ih after⟩

end Keeps

/-! ### Recording -/

/-- A steady recorder with this limit records the session, and holds these words for opcodes. -/
def Traced (session : Session) (limit : Option Nat) (words : List Int) : Prop :=
  ∃ recorder, session.recorder = some recorder ∧ recorder.Steady ∧ recorder.limit = limit ∧
    recorder.Shows words

/-- A limit leaves room for so many snapshots. -/
def Roomy (limit : Option Nat) (count : Nat) : Prop := ∀ most, limit = some most → count ≤ most

theorem Roomy.less {limit : Option Nat} {fewer more : Nat} (room : Roomy limit more)
    (less : fewer ≤ more) : Roomy limit fewer :=
  fun most bound => Nat.le_trans less (room most bound)

variable {limit : Option Nat} {words : List Int}

theorem advance_fault {fault : Fault} (fails : session.machine.cycle.result = .error fault) :
    session.advance = ⟨{ session with machine := session.machine.cycle.machine }, .error fault,
      session.machine.cycle.events.map .machine⟩ := by
  unfold advance
  dsimp only
  rw [fails]

theorem advance_done (ends : session.machine.cycle.result = .ok ()) :
    session.advance =
      let written := recorded { session with machine := session.machine.cycle.machine }
      ⟨written.1, written.2, session.machine.cycle.events.map .machine⟩ := by
  unfold advance
  dsimp only
  rw [ends]

/-- A cycle without a fault is recorded, with the last word of the machine after it. -/
theorem Traced.advance (traced : session.Traced limit words)
    (room : Roomy limit (words.length + session.turn.length)) :
    session.advance.result = session.machine.cycle.result ∧
      session.advance.session.Traced limit (words ++ session.turn.map Machine.lastWord) := by
  obtain ⟨recorder, attached, steady, rfl, shows⟩ := traced
  unfold turn at room ⊢
  cases ends : session.machine.cycle.result with
  | error fault =>
      rw [advance_fault ends, List.map_nil, List.append_nil]
      exact ⟨rfl, recorder, attached, steady, rfl, shows⟩
  | ok value =>
      rw [ends] at room
      obtain ⟨after, taken, still, bound, holds⟩ :=
        recorder.record_shows steady shows session.machine.cycle.machine room
      have recorded : recorded { session with machine := session.machine.cycle.machine } =
          ({ session with machine := session.machine.cycle.machine, recorder := some after },
            .ok ()) := by
        unfold recorded
        simp only [attached, taken]
      rw [advance_done ends, recorded]
      rw [Machine.cycle_last ends] at holds
      exact ⟨rfl, after, rfl, still, bound, holds⟩

theorem Traced.advanceMany (traced : session.Traced limit words) {count : Nat}
    (room : Roomy limit (words.length + (session.turnsMany count).length)) :
    (session.advanceMany count).session.Traced limit
      (words ++ (session.turnsMany count).map Machine.lastWord) := by
  induction count generalizing session words with
  | zero =>
      rw [turnsMany, List.map_nil, List.append_nil]
      exact traced
  | succ count ih =>
      unfold turnsMany at room ⊢
      unfold Session.advanceMany
      by_cases stopped : session.machine.halted = true
      · rw [if_pos stopped, if_pos stopped, List.map_nil, List.append_nil]
        exact traced
      rw [if_neg stopped] at room ⊢
      rw [if_neg stopped]
      cases ends : session.advance.result with
      | error fault =>
          rw [ends] at room
          rw [Turnout.andThen_error ends]
          exact (traced.advance room).2
      | ok value =>
          rw [ends] at room
          dsimp only at room ⊢
          rw [List.length_append, ← Nat.add_assoc] at room
          rw [Turnout.andThen_ok ends, List.map_append, ← List.append_assoc]
          refine ih (traced.advance (room.less (Nat.le_add_right _ _))).2 ?_
          rw [List.length_append, List.length_map]
          exact room

theorem Traced.act (traced : session.Traced limit words) {action : Action}
    (room : Roomy limit (words.length + (session.turns action).length)) :
    (session.act action).Traced limit (words ++ (session.turns action).map Machine.lastWord) := by
  cases action with
  | cycle =>
      unfold turns at room ⊢
      unfold Session.act Session.cycle
      dsimp only at room ⊢
      by_cases started : session.started = true
      · rw [if_pos started] at room
        rw [if_pos started, if_pos started]
        exact (traced.advance room).2
      · rw [if_neg started, if_neg started, List.map_nil, List.append_nil]
        exact traced
  | runFrame =>
      cases sized : session.cyclesPerFrame.whole? with
      | none =>
          simp only [Session.act, turns, runFrame, sized, List.map_nil, List.append_nil]
          exact traced
      | some count =>
          simp only [turns, sized] at room
          simp only [Session.act, turns, runFrame, sized]
          have run := traced.advanceMany room
          unfold Turnout.andThen
          split <;> exact run
  | _ =>
      obtain ⟨recorder, attached, steady, bound, shows⟩ := traced
      rw [← List.append_nil words] at shows
      refine ⟨recorder, ?_, steady, bound, shows⟩
      dsimp only [Session.act, load, reset, start, stop, press, release, consumeRedraw]
      exact attached

theorem Traced.actAll (traced : session.Traced limit words) {actions : List Action}
    (room : Roomy limit (words.length + (session.turnsAll actions).length)) :
    (session.actAll actions).Traced limit
      (words ++ (session.turnsAll actions).map Machine.lastWord) := by
  induction actions generalizing session words with
  | nil =>
      rw [turnsAll, List.map_nil, List.append_nil]
      exact traced
  | cons action rest ih =>
      unfold turnsAll at room ⊢
      rw [List.length_append, ← Nat.add_assoc] at room
      rw [List.map_append, ← List.append_assoc]
      refine ih (traced.act (room.less (Nat.le_add_right _ _))) ?_
      rw [List.length_append, List.length_map]
      exact room

/-- What is executed is what is recorded exactly if every recorded cycle executes a word. -/
theorem executed_eq_lastWords {turns : List Machine}
    (traceable : ∀ machine ∈ turns, machine.Traceable ∧ machine.cycle.result = .ok ()) :
    turns.filterMap Machine.word? = turns.map Machine.lastWord ↔
      ∀ machine ∈ turns, machine.halted = false ∧
        Machine.isProgramAddress machine.counter = true := by
  rw [List.filterMap_eq_map_iff_forall_eq_some]
  refine forall₂_congr fun machine member => ?_
  obtain ⟨proper, ends⟩ := traceable machine member
  rw [← proper.runs_iff, ← Machine.word?_isSome_iff ends]
  unfold Machine.lastWord
  cases machine.word? <;> simp

/-- A recorder that was made and not yet used records a session from the load on. -/
theorem traced_load {filter limit : Value} {ratio : Int} {recorder : Recorder}
    (picks : filter = .null ∨ ∃ items, filter = .list items)
    (made : Recorder.make limit (.int ratio) filter = .ok recorder)
    (attached : session.recorder = some recorder) (program : Option (List UInt8)) :
    (session.load program).session.Traced recorder.limit [] := by
  refine ⟨recorder, attached, Recorder.make_steady picks made, rfl, ?_⟩
  obtain ⟨most, step, -, rfl⟩ := Recorder.make_cases made
  rfl

/-- After a program is taken, whatever a host does with the session: a recorder that has room for all
snapshots holds an opcode for each cycle without a fault. It is the word that the cycle executes, or the
one before if it executes none. The opcodes are the words that the machine says it executes, each once,
exactly if no recorded cycle starts with the machine halted or its counter out of order. The histogram
counts the opcodes by family. -/
theorem recorded_trace (session : Session) {limit filter : Value} {ratio : Int}
    (picks : filter = .null ∨ ∃ items, filter = .list items) {recorder : Recorder}
    (made : Recorder.make limit (.int ratio) filter = .ok recorder)
    (attached : session.recorder = some recorder) {program : Option (List UInt8)}
    (taken : (session.load program).result = .ok true) (actions : List Action) :
    let loaded := (session.load program).session
    let turns := loaded.turnsAll actions
    Roomy recorder.limit turns.length →
      ∃ written, (loaded.actAll actions).recorder = some written ∧
        written.Shows (turns.map Machine.lastWord) ∧
        loaded.executedAll actions = turns.filterMap Machine.word? ∧
        (written.Shows (loaded.executedAll actions) ↔
          ∀ machine ∈ turns, machine.halted = false ∧
            Machine.isProgramAddress machine.counter = true) ∧
        ∃ table, written.histogram = .ok table ∧ ∀ family count, (family, count) ∈ table ↔
          count = turns.countP (fun machine => machine.lastWord.toNat / 0x1000 = family) ∧
            count ≠ 0 := by
  intro loaded turns room
  have renewing : (Request.load program).renews = true :=
    (Machine.load_result session.machine program).symm.trans (Except.ok.inj taken)
  have begun : loaded.machine.Traceable :=
    ⟨(Machine.serve_anew renewing).accounted, by
      change Machine.IsWord (session.machine.serve (.load program)).machine.last
      rw [Machine.serve_last renewing]
      exact ⟨by decide, by decide⟩⟩
  have all : ∀ machine ∈ turns, machine.Traceable ∧ machine.cycle.result = .ok () :=
    turnsAll_keeps (fun _ request held => held.serve request)
      (fun _ held => ⟨⟨held.accounts.sum, held.accounts.few, held.accounts.stops⟩, held.last⟩) begun actions
  have start : loaded.Traced recorder.limit [] := traced_load picks made attached program
  have fits : Roomy recorder.limit (([] : List Int).length + turns.length) := by simpa using room
  obtain ⟨written, kept, -, -, shows⟩ := start.actAll fits
  rw [List.nil_append] at shows
  have executed : loaded.executedAll actions = turns.filterMap Machine.word? :=
    loaded.executedAll_turnsAll actions
  have words : ∀ word ∈ turns.map Machine.lastWord, Machine.IsWord word := by
    intro word member
    obtain ⟨machine, inside, rfl⟩ := List.mem_map.mp member
    obtain ⟨proper, ends⟩ := all machine inside
    rw [← Machine.cycle_last ends]
    exact Machine.cycle_isWord proper.last
  refine ⟨written, kept, shows, executed, ?_, ?_⟩
  · rw [executed, ← executed_eq_lastWords all]
    constructor
    · exact fun told => told.unique shows
    · intro same
      rw [same]
      exact shows
  · have small : ∀ word ∈ (turns.map Machine.lastWord).map Int.toNat, word < 0x10000 := by
      intro word member
      obtain ⟨number, inside, rfl⟩ := List.mem_map.mp member
      obtain ⟨low, high⟩ := words number inside
      omega
    obtain ⟨table, counted, entries⟩ := Recorder.histogram_iff (shows.opcodes words) small
    refine ⟨table, counted, fun family count => (entries family count).trans ?_⟩
    rw [List.map_map, List.countP_map]
    rfl

/-! ### A counter behind the memory -/

/-- A program as long as the memory allows: it jumps to its last word, which puts a zero. -/
def brink : List UInt8 := [0x1f, 0xfe] ++ List.replicate 3580 0x00 ++ [0x60, 0x00]

theorem brink_length : brink.length = 3584 := by
  rw [brink, List.length_append, List.length_append, List.length_replicate]
  rfl

theorem brink_last (inside : 3582 + 1 < brink.length) : brink[3582] = 0x60 ∧ brink[3583] = 0x00 := by
  have front : ([0x1f, 0xfe] ++ List.replicate 3580 0x00 : List UInt8).length = 3582 := by
    rw [List.length_append, List.length_replicate]
    rfl
  constructor
  · exact (List.getElem_append_right (Nat.le_of_eq front)).trans (by simp only [front]; rfl)
  · exact (List.getElem_append_right (by omega)).trans (by simp only [front]; rfl)

/-- The program is taken, and then it is a jump to its last word. -/
theorem brink_faces (machine : Machine) :
    (Request.load (some brink)).renews = true ∧
      (machine.load (some brink)).machine.Faces 0x1ffe ∧
      Machine.wordAt (machine.load (some brink)).machine.memory 0xffe = 0x6000 := by
  have fits : brink.length ≤ Memory.largestProgram := Nat.le_of_eq brink_length
  have inside : 3582 + 1 < brink.length := by rw [brink_length]; decide
  have long : 1 < brink.length := by omega
  have found := @Machine.wordAt_withProgram machine.reset.memory brink fits 3582 inside
  rw [(brink_last inside).1, (brink_last inside).2] at found
  have renewing : (Request.load (some brink)).renews = true :=
    (Request.renews_load_iff (some brink)).mpr ⟨Nat.le_of_lt long, fits⟩
  refine ⟨renewing, machine.load_faces long fits, ?_⟩
  rw [machine.load_taken renewing]
  exact found

/-- A jump to the last word of the memory leaves the counter behind it after two cycles, and the third
executes no word. -/
theorem jump_to_end {first : Machine} (valid : first.WellFormed) (faces : first.Faces 0x1ffe)
    (last : Machine.wordAt first.memory 0xffe = 0x6000) :
    let second := first.cycle.machine
    let third := second.cycle.machine
    second.Faces 0x6000 ∧ third.halted = false ∧ first.word? = some 0x1ffe ∧
      second.word? = some 0x6000 ∧ third.word? = none ∧ third.last = 0x6000 := by
  intro second third
  obtain ⟨validNext, -, ⟨_, ends⟩, -⟩ := Machine.cycle_orderly valid
  obtain ⟨validLast, -, ⟨_, endsNext⟩, -⟩ := Machine.cycle_orderly validNext
  obtain ⟨-, -, ⟨_, endsLast⟩, -⟩ := Machine.cycle_orderly validLast
  obtain ⟨memory, same, jumps⟩ := faces.applies (.jump (by decide))
  obtain ⟨-, jumped⟩ := jumps _ rfl faces.few
  have place : second.counter = 0xffe := congrArg Machine.counter jumped
  have next : second.Faces 0x6000 := by
    refine ⟨(congrArg Machine.halted jumped).trans faces.awake, ?_, by rw [place]; rfl, ?_⟩
    · have errors := congrArg Machine.errors jumped
      change second.errors = first.errors at errors
      rw [errors]
      exact faces.few
    · have held : second.memory = memory := congrArg Machine.memory jumped
      rw [place, held]
      exact (Machine.wordAt_congr same 0xffe).trans last
  obtain ⟨other, -, puts⟩ := next.applies (.put (by decide))
  obtain ⟨-, ended⟩ := puts _ rfl next.few
  have behind : third.counter = second.counter + 2 := congrArg Machine.counter ended
  rw [place] at behind
  have word : second.word? = some 0x6000 := Machine.word?_of_faces next endsNext
  refine ⟨next, (congrArg Machine.halted ended).trans next.awake, Machine.word?_of_faces faces ends, word,
    ?_, ?_⟩
  · rw [← Option.not_isSome_iff_eq_none, Machine.word?_isSome_iff endsLast]
    intro runs
    have allowed : Machine.isProgramAddress third.counter = true := runs.allowed
    rw [behind] at allowed
    cases allowed
  · refine (Machine.cycle_last endsNext).trans ?_
    change second.word?.getD second.last = 0x6000
    rw [word]
    rfl

/-- The machines at the cycles of a session that is started are those that the machine runs through. -/
theorem turnsAll_cycles (started : session.started = true) (valid : session.machine.WellFormed)
    (count : Nat) :
    session.turnsAll (List.replicate count .cycle) =
      List.iterate (fun machine => machine.cycle.machine) session.machine count := by
  induction count generalizing session with
  | zero => rfl
  | succ count ih =>
      obtain ⟨after, -, ⟨value, ends⟩, -⟩ := Machine.cycle_orderly valid
      obtain ⟨next, still⟩ := cycle_started started
      have first : session.turns .cycle = [session.machine] := by
        unfold turns turn
        dsimp only
        rw [if_pos started, ends]
      have others := ih still (next ▸ after)
      rw [next] at others
      rw [List.replicate_succ, turnsAll, first, List.iterate]
      exact congrArg (session.machine :: ·) others

/-- A session that has loaded a jump to the last word of the memory runs through three machines. -/
theorem turns_to_end {session : Session} (valid : session.machine.WellFormed)
    {program : Option (List UInt8)} (taken : (Request.load program).renews = true)
    (faces : (session.machine.load program).machine.Faces 0x1ffe)
    (last : Machine.wordAt (session.machine.load program).machine.memory 0xffe = 0x6000) :
    let loaded := (session.load program).session
    (session.load program).result = .ok true ∧ ∃ first second third,
      loaded.turnsAll [.start, .cycle, .cycle] = [first, second] ∧
      loaded.turnsAll [.start, .cycle, .cycle, .cycle] = [first, second, third] ∧
      first.Faces 0x1ffe ∧ second.Faces 0x6000 ∧ third.halted = false ∧
      first.word? = some 0x1ffe ∧ second.word? = some 0x6000 ∧ third.word? = none ∧
      third.last = 0x6000 := by
  intro loaded
  have ready : loaded.machine.WellFormed := (Machine.serve_orderly valid (.load program)).wellFormed
  have turns := @turnsAll_cycles loaded.start rfl ready
  exact ⟨congrArg Except.ok ((session.machine.load_result program).trans taken),
    _, _, _, turns 2, turns 3, faces, jump_to_end ready faces last⟩

/-- A recorder without a limit holds the two words that such a session executes in two cycles. -/
theorem recorded_trace_brink :
    ∃ recorder, Recorder.make .null (.int 10) .null = .ok recorder ∧
      let session : Session :=
        ⟨[], .new (.blank 8 4) (.ofSeed 12345), .null, .null, false, 0, some recorder⟩
      let loaded := (session.load (some brink)).session
      let actions := [.start, .cycle, .cycle]
      (session.load (some brink)).result = .ok true ∧
        ∃ written, (loaded.actAll actions).recorder = some written ∧
          written.Shows (loaded.executedAll actions) := by
  have made := Recorder.make_whole 10 .null (show Recorder.limitOf .null = .ok none from rfl)
  refine ⟨_, made, ?_⟩
  intro session
  obtain ⟨renewing, faces, last⟩ := brink_faces session.machine
  have valid : session.machine.WellFormed := Machine.fresh_wellFormed _ _ _ (by decide) (by decide)
  generalize some brink = program at renewing faces last ⊢
  intro loaded actions
  obtain ⟨taken, first, second, third, two, -, one, next, -⟩ := turns_to_end valid renewing faces last
  obtain ⟨written, kept, -, -, whole, -⟩ :=
    recorded_trace session (.inl rfl) made rfl taken actions (nofun)
  refine ⟨taken, written, kept, whole.mpr ?_⟩
  rw [two]
  exact List.forall_mem_cons.mpr ⟨⟨one.awake, one.allowed⟩,
    List.forall_mem_singleton.mpr ⟨next.awake, next.allowed⟩⟩

/-- The third cycle of such a session executes nothing, and yet it is recorded. -/
theorem stale_opcode_recorded :
    ∃ recorder, Recorder.make .null (.int 10) .null = .ok recorder ∧
      let session : Session :=
        ⟨[], .new (.blank 8 4) (.ofSeed 12345), .null, .null, false, 0, some recorder⟩
      let loaded := (session.load (some brink)).session
      let actions := [.start, .cycle, .cycle, .cycle]
      (session.load (some brink)).result = .ok true ∧
        (∀ machine ∈ loaded.turnsAll actions, machine.halted = false) ∧
        loaded.executedAll actions = [0x1ffe, 0x6000] ∧
        ∃ written, (loaded.actAll actions).recorder = some written ∧
          written.Shows [0x1ffe, 0x6000, 0x6000] := by
  have made := Recorder.make_whole 10 .null (show Recorder.limitOf .null = .ok none from rfl)
  refine ⟨_, made, ?_⟩
  intro session
  obtain ⟨renewing, faces, last⟩ := brink_faces session.machine
  have valid : session.machine.WellFormed := Machine.fresh_wellFormed _ _ _ (by decide) (by decide)
  generalize some brink = program at renewing faces last ⊢
  intro loaded actions
  obtain ⟨taken, first, second, third, -, three, one, next, awake, word, other, silent, stale⟩ :=
    turns_to_end valid renewing faces last
  have start : loaded.Traced none [] := traced_load (.inl rfl) made rfl program
  obtain ⟨written, kept, -, -, shows⟩ := start.actAll (show Roomy none _ from nofun)
  refine ⟨taken, ?_, ?_, written, kept, ?_⟩
  · rw [three]
    simp only [List.forall_mem_cons]
    exact ⟨one.awake, next.awake, awake, List.forall_mem_nil _⟩
  · rw [executedAll_turnsAll, three]
    simp only [List.filterMap_cons, word, other, silent, List.filterMap_nil]
  · rw [three] at shows
    simpa only [List.nil_append, List.map_cons, List.map_nil, Machine.lastWord, word, other, silent, stale,
      Option.getD_some, Option.getD_none] using shows

end Session

end ChipEight
