/-
This file shows that calls nest. The stack below the depth holds the return addresses of the calls
that are open, oldest first, so each return goes back behind the latest of them.
-/

import ChipEight.Machine.Report
import ChipEight.Proofs.Machine.Execution
import ChipEight.Proofs.Machine.Frame
import ChipEight.Proofs.Machine.Invariant

namespace ChipEight.Machine

/-- The places of the open calls, oldest first, after a cycle at a place. A call that is accepted is
open until a return. -/
def followed (opened : List Int) (place : Int) : Option (Int × Status) → List Int
  | none => opened
  | some (word, status) =>
      if (Opcode.family 0x2).Covers word ∧ status = .applied then opened ++ [place]
      else if word = 0x00ee then opened.dropLast
      else opened

/-- The places of the open calls after a request. None is open where the machine begins anew. -/
def openedAfter (machine : Machine) (opened : List Int) : Request → List Int
  | .cycle => followed opened machine.counter machine.execution?
  | request => if request.renews then [] else opened

/-- The places of the open calls after some requests. -/
def openCalls (machine : Machine) (opened : List Int) : List Request → List Int
  | [] => opened
  | request :: rest =>
      (machine.serve request).machine.openCalls (machine.openedAfter opened request) rest

/-- What a word does to the stack: it opens a call from which a return goes `back`, it closes the
latest call, or it leaves the stack alone. -/
inductive StackStep (machine : Machine) (back word : Int) (status : Status) (after : Machine) :
    Prop where
  | call (slot : Fin stackSize) (atDepth : (slot.val : Int) = machine.depth)
      (calls : (Opcode.family 0x2).Covers word) (ends : status = .applied)
      (depth : after.depth = machine.depth + 1) (stack : after.stack = machine.stack.set slot back)
  | leave (slot : Fin stackSize) (below : (slot.val : Int) = machine.depth - 1)
      (leaves : word = 0x00ee)
      (ends : status = if isProgramAddress machine.stack[slot] then .applied else .halted)
      (depth : after.depth = machine.depth - 1) (stack : after.stack = machine.stack)
      (counter : after.counter = machine.stack[slot])
  | keep (other : ¬ ((Opcode.family 0x2).Covers word ∧ status = .applied))
      (shallow : word = 0x00ee → machine.depth = 0) (depth : after.depth = machine.depth)
      (stack : after.stack = machine.stack)

variable {machine : Machine}

/-- No call is a return. -/
theorem ne_leave_of_calls {word : Int} (calls : (Opcode.family 0x2).Covers word) :
    word ≠ 0x00ee := by
  rintro rfl
  exact absurd calls (by decide)

theorem perform_stackStep (low : 0 ≤ machine.depth) (high : machine.depth ≤ 16) {word : Int}
    {status : Status} (ends : (machine.perform word).result = .ok status) :
    machine.StackStep machine.counter word status (machine.perform word).machine := by
  by_cases calls : (Opcode.family 0x2).Covers word
  · have goes : machine.perform word = machine.call (Instruction.addressOf word) :=
      machine.perform_spelled (.call calls)
    have notLeave := ne_leave_of_calls calls
    rw [goes] at ends ⊢
    rcases call_cases low high (Instruction.addressOf word) with
      outside | ⟨-, full⟩ | ⟨slot, atDepth, -, called⟩
    · rw [outside] at ends ⊢
      cases ends
      exact .keep (by simp) (fun leaves => absurd leaves notLeave) rfl rfl
    · rw [full] at ends ⊢
      cases ends
      exact .keep (by simp) (fun leaves => absurd leaves notLeave) rfl rfl
    · rw [called] at ends ⊢
      cases ends
      exact .call slot atDepth calls rfl rfl rfl
  by_cases leaves : word = 0x00ee
  · have goes : machine.perform word = machine.leave := machine.perform_spelled (.leave leaves)
    rw [goes] at ends ⊢
    rcases leave_cases low high with ⟨empty, halts⟩ | ⟨slot, below, returns⟩
    · rw [halts] at ends ⊢
      exact .keep (fun both => calls both.1) (fun _ => empty) rfl rfl
    · rw [returns] at ends ⊢
      split at ends
      case isTrue allowed =>
        cases ends
        rw [if_pos allowed]
        exact .leave slot below leaves (if_pos allowed).symm rfl rfl rfl
      case isFalse outside =>
        cases ends
        rw [if_neg outside]
        exact .leave slot below leaves (if_neg outside).symm rfl rfl rfl
  · have unnamed : ¬ Opcode.Listed [.family 0x2, .whole 0x00ee] word := by
      simp [Opcode.Listed, Opcode.Covers] at calls ⊢
      exact ⟨calls, leaves⟩
    obtain ⟨depth, stack⟩ := (machine.perform_confined word).stack unnamed
    exact .keep (fun both => calls both.1) (fun isLeave => absurd isLeave leaves) depth stack

/-- A step of the stack looks at the depth and the stack before and after, and at the counter after,
but at nothing else. -/
theorem StackStep.transfer {first last after : Machine} {back word : Int} {status : Status}
    (step : machine.StackStep back word status after) (depth : machine.depth = first.depth)
    (stack : machine.stack = first.stack) (endDepth : last.depth = after.depth)
    (endStack : last.stack = after.stack) (endCounter : last.counter = after.counter) :
    first.StackStep back word status last := by
  cases step with
  | call slot atDepth calls ends deeper pushed =>
      rw [depth] at atDepth deeper
      rw [stack] at pushed
      exact .call slot atDepth calls ends (endDepth.trans deeper) (endStack.trans pushed)
  | leave slot below leaves ends shallower same counter =>
      rw [depth] at below shallower
      rw [stack] at ends same counter
      exact .leave slot below leaves ends (endDepth.trans shallower) (endStack.trans same)
        (endCounter.trans counter)
  | keep other shallow level same =>
      rw [depth] at shallow level
      rw [stack] at same
      exact .keep other shallow (endDepth.trans level) (endStack.trans same)

/-- A cycle takes the step on the stack of the word that it executes, and none if it executes none. -/
theorem cycle_stackStep (valid : machine.WellFormed) :
    (machine.execution? = none ∧ machine.cycle.machine.depth = machine.depth ∧
      machine.cycle.machine.stack = machine.stack) ∨
    ∃ word status, machine.execution? = some (word, status) ∧
      machine.StackStep (machine.counter + 2) word status machine.cycle.machine := by
  have begins : machine.begun.WellFormed := { valid with }
  cases machine.cycle_course with
  | idle silent _ _ _ _ _ after =>
      rw [after]
      exact .inl ⟨silent, rfl, rfl⟩
  | faulted _ fault allowed ends _ =>
      obtain ⟨status, returns⟩ := (performed_orderly begins allowed).returns
      exact nomatch ends.symm.trans returns
  | executed status _ _ allowed ends execution after =>
      obtain ⟨memory, notes, -, -, -, loads⟩ := machine.begun.loaded_eq allowed
      have depth : machine.begun.loaded.depth = machine.depth := by rw [loads]; rfl
      have stack : machine.begun.loaded.stack = machine.stack := by rw [loads]; rfl
      have back : machine.begun.loaded.counter = machine.counter + 2 := by rw [loads]; rfl
      have step := @perform_stackStep machine.begun.loaded (by rw [depth]; exact valid.depth.1)
        (by rw [depth]; exact valid.depth.2) _ _ ends
      rw [back] at step
      rw [after, checkErrors_machine]
      exact .inr ⟨_, status, execution, step.transfer depth stack rfl rfl rfl⟩

/-- The live part of the stack is what lies below the depth. -/
theorem liveStack_eq_take {count : Nat} (depth : machine.depth = count) (room : count ≤ 16) :
    machine.liveStack = machine.stack.toList.take count := by
  have length : machine.stack.toList.length = 16 := Vector.length_toList
  have stop : Slice.clamp 16 machine.depth = count := by
    unfold Slice.clamp
    rw [if_neg (by omega)]
    omega
  unfold liveStack Slice.ofList
  simp only [length, Option.map_some, Option.getD_some, Option.map_none, Option.getD_none, stop,
    List.drop_zero]

/-- The slot below the depth is the last one of the live part. -/
theorem liveStack_eq_append (slot : Fin stackSize)
    (below : machine.depth = (slot.val + 1 : Nat)) :
    machine.liveStack = machine.stack.toList.take slot.val ++ [machine.stack[slot]] := by
  have inside : slot.val < machine.stack.toList.length := by
    rw [Vector.length_toList]
    exact slot.isLt
  have room : slot.val + 1 ≤ 16 := slot.isLt
  rw [liveStack_eq_take below room, List.take_succ_eq_append_getElem inside, Vector.getElem_toList]
  rfl

/-- As many calls are open as the machine is deep, and the live part of the stack lists the addresses
behind them. -/
structure Nested (machine : Machine) (opened : List Int) : Prop where
  depth : machine.depth = opened.length
  room : opened.length ≤ 16
  live : machine.liveStack = opened.map (· + 2)

/-- The slot below the depth holds the address behind the latest call. -/
theorem Nested.latest {opened : List Int} (nested : machine.Nested opened) {slot : Fin stackSize}
    (below : (slot.val : Int) = machine.depth - 1) :
    opened.getLast?.map (· + 2) = some machine.stack[slot] := by
  rw [← List.getLast?_map, ← nested.live, liveStack_eq_append slot (by omega),
    List.getLast?_append]
  rfl

/-- A call puts the address behind it on top of the stack. -/
theorem Nested.call {opened : List Int} (nested : machine.Nested opened) {after : Machine}
    {slot : Fin stackSize} {place : Int} (atDepth : (slot.val : Int) = machine.depth)
    (depth : after.depth = machine.depth + 1)
    (stack : after.stack = machine.stack.set slot (place + 2)) :
    after.Nested (opened ++ [place]) := by
  have inside : slot.val < 16 := slot.isLt
  have before := nested.depth
  have below : machine.stack.toList.take slot.val = opened.map (· + 2) := by
    rw [← liveStack_eq_take atDepth.symm (by omega), nested.live]
  have top : after.stack[slot] = place + 2 := by
    rw [stack]
    exact Vector.getElem_set_self _
  refine ⟨?_, ?_, ?_⟩
  · rw [List.length_append]
    simp only [List.length_singleton]
    omega
  · rw [List.length_append, List.length_singleton]
    omega
  · rw [liveStack_eq_append slot (by omega), top, stack, Vector.toList_set,
      List.take_set_of_le (Nat.le_refl _), below, List.map_append]
    rfl

/-- A return takes the address behind the latest call off the stack. -/
theorem Nested.leave {opened : List Int} (nested : machine.Nested opened) {after : Machine}
    {slot : Fin stackSize} (below : (slot.val : Int) = machine.depth - 1)
    (depth : after.depth = machine.depth - 1) (stack : after.stack = machine.stack) :
    after.Nested opened.dropLast := by
  have inside : slot.val < 16 := slot.isLt
  have before := nested.depth
  have live := nested.live
  rw [liveStack_eq_append slot (by omega)] at live
  refine ⟨?_, ?_, ?_⟩
  · rw [List.length_dropLast]
    omega
  · rw [List.length_dropLast]
    omega
  · rw [liveStack_eq_take (show after.depth = slot.val by omega) (by omega), stack,
      List.map_dropLast, ← live, List.dropLast_concat]

/-- What leaves the stack alone leaves the open calls alone. -/
theorem Nested.keep {opened : List Int} (nested : machine.Nested opened) {after : Machine}
    (depth : after.depth = machine.depth) (stack : after.stack = machine.stack) :
    after.Nested opened := by
  refine ⟨depth.trans nested.depth, nested.room, ?_⟩
  unfold liveStack
  rw [depth, stack]
  exact nested.live

/-- A step does to the stack what it does to the open calls. -/
theorem StackStep.nested {opened : List Int} (nested : machine.Nested opened) {place word : Int}
    {status : Status} {after : Machine} (step : machine.StackStep (place + 2) word status after) :
    after.Nested (followed opened place (some (word, status))) := by
  cases step with
  | call slot atDepth calls ends depth stack =>
      rw [followed, if_pos ⟨calls, ends⟩]
      exact nested.call atDepth depth stack
  | leave slot below leaves ends depth stack counter =>
      have other : ¬ ((Opcode.family 0x2).Covers word ∧ status = .applied) :=
        fun both => ne_leave_of_calls both.1 leaves
      rw [followed, if_neg other, if_pos leaves]
      exact nested.leave below depth stack
  | keep other shallow depth stack =>
      rw [followed, if_neg other]
      split
      case isTrue leaves =>
        have none := shallow leaves
        have count := nested.depth
        have empty : opened = [] := List.length_eq_zero_iff.mp (by omega)
        rw [empty] at nested ⊢
        exact nested.keep depth stack
      case isFalse => exact nested.keep depth stack

theorem cycle_nested (valid : machine.WellFormed) {opened : List Int}
    (nested : machine.Nested opened) :
    machine.cycle.machine.Nested (followed opened machine.counter machine.execution?) := by
  rcases cycle_stackStep valid with ⟨idle, depth, stack⟩ | ⟨word, status, execution, step⟩
  · rw [idle]
    exact nested.keep depth stack
  · rw [execution]
    exact step.nested nested

/-- No call is open where the machine begins anew. -/
theorem fresh_nested (memory : Memory) (display : Display) (keypad : Keypad) (random : RandomBytes) :
    (fresh memory display keypad random).Nested [] :=
  ⟨rfl, Nat.zero_le 16, rfl⟩

theorem serve_nested (valid : machine.WellFormed) {opened : List Int}
    (nested : machine.Nested opened) (request : Request) :
    (machine.serve request).machine.Nested (machine.openedAfter opened request) := by
  cases request with
  | cycle => exact cycle_nested valid nested
  | reset => exact fresh_nested _ _ _ _
  | press code => exact nested.keep rfl rfl
  | release code => exact nested.keep rfl rfl
  | load program =>
      unfold openedAfter
      dsimp only
      split
      case isTrue renewing =>
        change (machine.load program).machine.Nested []
        rw [machine.load_taken renewing]
        exact ⟨rfl, Nat.zero_le 16, rfl⟩
      case isFalse steady =>
        change (machine.load program).machine.Nested opened
        rw [machine.load_refused (by simpa using steady)]
        exact nested

/-- The live part of the stack lists the addresses behind the open calls after every run. -/
theorem serveAll_nested (valid : machine.WellFormed) {opened : List Int}
    (nested : machine.Nested opened) (requests : List Request) :
    (machine.serveAll requests).Nested (machine.openCalls opened requests) := by
  induction requests generalizing machine opened with
  | nil => exact nested
  | cons request rest ih =>
      exact ih (serve_orderly valid request).wellFormed (serve_nested valid nested request)

/-- A call stays open as long as as many calls are open as at first. -/
theorem followed_keeps {base opened : List Int} (kept : base <+: opened) (place : Int)
    (execution : Option (Int × Status))
    (deep : base.length ≤ (followed opened place execution).length) :
    base <+: followed opened place execution := by
  unfold followed at deep ⊢
  split at deep
  case h_1 => exact kept
  case h_2 word status =>
    split at deep
    case isTrue calls =>
      rw [if_pos calls]
      exact kept.trans (List.prefix_append _ _)
    case isFalse other =>
      rw [if_neg other]
      split at deep
      case isTrue leaves =>
        rw [if_pos leaves]
        exact List.prefix_of_prefix_length_le kept (List.dropLast_prefix _) deep
      case isFalse stays =>
        rw [if_neg stays]
        exact kept

theorem openedAfter_keeps {base opened : List Int} (kept : base <+: opened) {request : Request}
    (steady : request.renews = false)
    (deep : base.length ≤ (machine.openedAfter opened request).length) :
    base <+: machine.openedAfter opened request := by
  cases request with
  | cycle => exact followed_keeps kept _ _ deep
  | reset => cases steady
  | press code => exact kept
  | release code => exact kept
  | load program =>
      unfold openedAfter
      dsimp only
      rw [if_neg (by simp [steady])]
      exact kept

/-- Over a run that never gets shallower than some open calls are many, these stay open. -/
theorem openCalls_keeps (valid : machine.WellFormed) {base opened : List Int}
    (nested : machine.Nested opened) (kept : base <+: opened) (requests : List Request)
    (steady : ∀ request ∈ requests, request.renews = false)
    (deep : ∀ early, early <+: requests → (base.length : Int) ≤ (machine.serveAll early).depth) :
    base <+: machine.openCalls opened requests := by
  induction requests generalizing machine opened with
  | nil => exact kept
  | cons request rest ih =>
      have after := serve_nested valid nested request
      have first := deep [request] (List.prefix_append [request] rest)
      rw [serveAll_cons, serveAll_nil, after.depth] at first
      apply ih (serve_orderly valid request).wellFormed after
      · exact openedAfter_keeps kept (steady request List.mem_cons_self) (by omega)
      · intro later member
        exact steady later (List.mem_cons_of_mem request member)
      · intro early start
        exact deep (request :: early) (List.cons_prefix_cons.mpr ⟨rfl, start⟩)

/-- A return with calls open takes the latest address off the stack, and halts where no instruction may lie
there. -/
theorem cycle_leave (valid : machine.WellFormed) {status : Status}
    (execution : machine.execution? = some (0x00ee, status)) (deep : 0 < machine.depth) :
    ∃ slot : Fin stackSize, (slot.val : Int) = machine.depth - 1 ∧
      (status = if isProgramAddress machine.stack[slot] then .applied else .halted) ∧
      machine.cycle.machine.depth = machine.depth - 1 := by
  rcases cycle_stackStep valid with ⟨idle, -⟩ | ⟨word, ended, executed, step⟩
  · rw [execution] at idle
    cases idle
  · rw [execution] at executed
    cases executed
    cases step with
    | call slot atDepth calls => exact absurd rfl (ne_leave_of_calls calls)
    | keep other shallow =>
        have flat := shallow rfl
        omega
    | leave slot below leaves ends depth => exact ⟨slot, below, ends, depth⟩

/-- A return from an open call halts the machine just where no instruction lies behind the call. -/
theorem leave_halts_iff (valid : machine.WellFormed) {opened : List Int}
    (nested : machine.Nested opened) {status : Status}
    (execution : machine.execution? = some (0x00ee, status)) (pending : opened ≠ []) :
    status = .halted ↔ opened.getLast? = some 0xffe := by
  have deep := nested.depth
  have many := List.length_pos_iff.mpr pending
  obtain ⟨slot, below, ends, -⟩ := cycle_leave valid execution (by omega)
  obtain ⟨place, last, behind⟩ := Option.map_eq_some_iff.mp (nested.latest below)
  have past : IsReturnAddress (place + 2) := by
    rw [behind]
    exact valid.stack slot (by omega)
  obtain ⟨low, high, even⟩ := past
  rw [ends, last, ← behind, Option.some.injEq]
  have allowed := isProgramAddress_iff (place + 2)
  split
  case isTrue inside =>
    have bounds := allowed.mp inside
    simp only [reduceCtorEq, false_iff]
    omega
  case isFalse outside =>
    rw [allowed] at outside
    simp only [true_iff]
    omega

/-- A cycle that leaves as many calls open as there were before one that is open is a return from that
one: it goes behind the call and leaves the addresses behind the calls before. -/
theorem cycle_returns (valid : machine.WellFormed) {opened current : List Int} {place : Int}
    (nested : machine.Nested current) (kept : opened ++ [place] <+: current)
    (back : machine.cycle.machine.depth = opened.length) :
    (∃ status, machine.execution? = some (0x00ee, status)) ∧
      machine.cycle.machine.counter = place + 2 ∧
      machine.cycle.machine.liveStack = opened.map (· + 2) := by
  have depth := nested.depth
  have count := kept.length_le
  rw [List.length_append, List.length_singleton] at count
  rcases cycle_stackStep valid with ⟨-, level, -⟩ | ⟨word, status, executed, step⟩
  · omega
  · cases step with
    | call slot atDepth calls ends deeper => omega
    | keep other shallow level => omega
    | leave slot below leaves ends shallower stack counter =>
        have length : (opened ++ [place]).length = current.length := by
          rw [List.length_append, List.length_singleton]
          omega
        rw [← kept.eq_of_length length] at nested
        have latest := nested.latest below
        rw [List.getLast?_concat, Option.map_some, Option.some.injEq] at latest
        have after := nested.leave below shallower stack
        rw [List.dropLast_concat] at after
        rw [leaves] at executed
        exact ⟨⟨status, executed⟩, counter.trans latest.symm, after.live⟩

/-- A run that a call begins, and during which the machine stays deeper than before the call, ends
behind the call where it gets as shallow as that, and the stack is as it was. -/
theorem call_returns (valid : machine.WellFormed) {opened : List Int}
    (nested : machine.Nested opened) {word : Int}
    (execution : machine.execution? = some (word, .applied))
    (calls : (Opcode.family 0x2).Covers word) (later : List Request)
    (steady : ∀ request ∈ later, request.renews = false)
    (deeper : ∀ early, early <+: later →
      machine.depth < (machine.cycle.machine.serveAll early).depth) :
    let last := machine.cycle.machine.serveAll later
    last.cycle.machine.depth = machine.depth →
      (∃ status, last.execution? = some (0x00ee, status)) ∧
        last.cycle.machine.counter = machine.counter + 2 ∧
        last.cycle.machine.liveStack = machine.liveStack := by
  intro last back
  have called := cycle_nested valid nested
  rw [execution, followed, if_pos ⟨calls, rfl⟩] at called
  have inside := (cycle_orderly valid).wellFormed
  have reached := serveAll_nested inside called later
  have before := nested.depth
  rw [nested.live]
  refine cycle_returns (serveAll_orderly inside later).1 reached ?_ (back.trans before)
  apply openCalls_keeps inside called (List.prefix_refl _) later steady
  intro early start
  have above := deeper early start
  rw [List.length_append, List.length_singleton]
  omega

/-- A call from the full stack is rejected, whatever its target, and so changes nothing but the counts
of complaints. -/
theorem call_full (full : machine.depth = 16) {word : Int}
    (calls : (Opcode.family 0x2).Covers word) :
    ∃ complaint, machine.perform word = machine.reject complaint := by
  rw [machine.perform_spelled (.call calls)]
  change ∃ complaint, machine.call (Instruction.addressOf word) = machine.reject complaint
  rcases call_cases (show 0 ≤ machine.depth by omega) (Int.le_of_eq full) _ with
    outside | ⟨-, rejected⟩ | ⟨slot, atDepth, -⟩
  · exact ⟨_, outside⟩
  · exact ⟨_, rejected⟩
  · have inside : slot.val < 16 := slot.isLt
    omega

/-- A machine that runs and is at a return from an open call returns. -/
theorem cycle_leaves (valid : machine.WellFormed) (awake : machine.halted = false)
    (few : machine.errors < haltThreshold) (allowed : isProgramAddress machine.counter = true)
    (found : wordAt machine.memory machine.counter = 0x00ee) (deep : 0 < machine.depth) :
    machine.cycle.machine.depth = machine.depth - 1 := by
  have begins : machine.begun.WellFormed := { valid with }
  obtain ⟨status, ends⟩ := (performed_orderly begins allowed).returns
  obtain ⟨execution, -⟩ := cycle_executes awake few allowed ends
  rw [machine.begun.fetch_word allowed] at execution
  change machine.execution? = some (wordAt machine.memory machine.counter, status) at execution
  rw [found] at execution
  obtain ⟨slot, -, -, depth⟩ := cycle_leave valid execution deep
  exact depth

/-- Calls nest in every run of a new machine. The live part of the stack lists the addresses behind
the calls that are open, a return from one halts only where no instruction lies behind it, and a call
from the full stack is rejected. Where a call is made and the machine then stays deeper until a cycle
gets it as shallow as before, that cycle returns behind the call and the stack is as it was. -/
theorem calls_nest (display : Display) (random : RandomBytes) (wide : 0 < display.width)
    (high : 0 < display.height) (requests : List Request) :
    let start := Machine.new display random
    let machine := start.serveAll requests
    let opened := start.openCalls [] requests
    machine.liveStack = opened.map (· + 2) ∧
    (∀ status, machine.execution? = some (0x00ee, status) → opened ≠ [] →
      (status = .halted ↔ opened.getLast? = some 0xffe)) ∧
    (∀ (full : Machine) word, full.depth = 16 → (Opcode.family 0x2).Covers word →
      ∃ complaint, full.perform word = full.reject complaint) ∧
    ∀ word, (Opcode.family 0x2).Covers word → machine.execution? = some (word, .applied) →
      ∀ later, (∀ request ∈ later, request.renews = false) →
        (∀ early, early <+: later →
          machine.depth < (machine.cycle.machine.serveAll early).depth) →
        let last := machine.cycle.machine.serveAll later
        last.cycle.machine.depth = machine.depth →
          (∃ status, last.execution? = some (0x00ee, status)) ∧
            last.cycle.machine.counter = machine.counter + 2 ∧
            last.cycle.machine.liveStack = machine.liveStack := by
  intro start machine opened
  have startValid : start.WellFormed := fresh_wellFormed _ _ _ wide high
  have valid : machine.WellFormed := (serveAll_orderly startValid requests).1
  have nested : machine.Nested opened :=
    serveAll_nested startValid (fresh_nested _ _ _ _) requests
  refine ⟨nested.live, ?_, ?_, ?_⟩
  · intro status execution pending
    exact leave_halts_iff valid nested execution pending
  · intro full word deep calls
    exact call_full deep calls
  · intro word calls execution later steady deeper
    exact call_returns valid nested execution calls later steady deeper

/-- A program calls, a key is pressed, and the program returns. -/
theorem calls_nest_return :
    let start := Machine.new (.blank 8 4) (.ofSeed 12345)
    let machine := start.serveAll [.load (some [0x22, 0x04, 0x00, 0x00, 0x00, 0xee])]
    let last := machine.cycle.machine.serveAll [.press 3]
    0 < (Display.blank 8 4).width ∧ 0 < (Display.blank 8 4).height ∧
      (Opcode.family 0x2).Covers 0x2204 ∧ machine.execution? = some (0x2204, .applied) ∧
      last.cycle.machine.depth = machine.depth ∧ last.cycle.machine.counter = 0x202 := by
  intro start machine last
  let program : List UInt8 := [0x22, 0x04, 0x00, 0x00, 0x00, 0xee]
  have first : wordAt machine.memory 0x200 = 0x2204 :=
    @wordAt_withProgram start.reset.memory program (by decide) 0 (by decide)
  have second : wordAt machine.memory 0x204 = 0x00ee :=
    @wordAt_withProgram start.reset.memory program (by decide) 4 (by decide)
  have valid : machine.WellFormed :=
    (serveAll_orderly (fresh_wellFormed _ _ _ (by decide) (by decide)) _).1
  have validLast : last.WellFormed :=
    (serveAll_orderly (cycle_orderly valid).wellFormed [.press 3]).1
  obtain ⟨memory, same, runs⟩ :=
    cycle_word (show machine.halted = false from rfl) (by decide) rfl first
  obtain ⟨execution, after⟩ := runs .applied rfl
  have inside : machine.cycle.machine.depth = 1 := by
    rw [after]
    rfl
  have pressed : last = _ := congrArg (fun called : Machine => called.serveAll [.press 3]) after
  have reached : last.halted = false ∧ last.errors = 0 ∧ last.counter = 0x204 ∧ last.depth = 1 ∧
      last.memory.bytes = machine.memory.bytes := by
    rw [pressed]
    exact ⟨rfl, rfl, rfl, rfl, same⟩
  obtain ⟨awake, errors, place, depth, held⟩ := reached
  have back : last.cycle.machine.depth = machine.depth := by
    rw [cycle_leaves validLast awake, depth]
    · rfl
    · rw [errors]
      decide
    · rw [place]
      rfl
    · rw [place]
      exact (wordAt_congr held 0x204).trans second
    · rw [depth]
      decide
  have covers : (Opcode.family 0x2).Covers 0x2204 := by decide
  have steady : ∀ request ∈ [Request.press 3], request.renews = false := by decide
  have deeper : ∀ early, early <+: [Request.press 3] →
      machine.depth < (machine.cycle.machine.serveAll early).depth := by
    intro early start
    rcases List.prefix_cons_iff.mp start with rfl | ⟨rest, rfl, nothing⟩
    · rw [serveAll_nil, inside]
      decide
    · rw [List.prefix_nil.mp nothing]
      change machine.depth < last.depth
      rw [depth]
      decide
  obtain ⟨-, -, -, returns⟩ := calls_nest (.blank 8 4) (.ofSeed 12345) (by decide) (by decide)
    [.load (some program)]
  obtain ⟨-, counter, -⟩ := returns 0x2204 covers execution [.press 3] steady deeper back
  exact ⟨by decide, by decide, covers, execution, back, counter⟩

end ChipEight.Machine
