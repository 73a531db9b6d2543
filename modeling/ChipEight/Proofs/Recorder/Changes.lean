/-
This file describes the changes of a register by the snapshots that hold it, and what a window of cycles
leaves of them.
-/

import ChipEight.Proofs.Recorder.Retention

namespace ChipEight.Recorder

/-! ### Snapshots that hold a register -/

/-- What a snapshot tells of a register that it holds. -/
structure Sighting where
  cycle : Value
  counter : Value
  value : Int

/-- The value of a register in a snapshot that holds it. -/
def registerOf (name : String) (state : Value) : Option Value :=
  (state.field? "registers").bind fun registers => registers.field? name

/-- A mapping with a mapping of registers, if it has any, and with a whole number for one of them, if that is
among them. -/
def IsNumbered (name : String) (state : Value) : Prop :=
  IsRecord state ∧ ∀ value, registerOf name state = some value → ∃ number, value = .int number

def sighting? (name : String) (state : Value) : Option Sighting :=
  match registerOf name state with
  | some (.int value) => some ⟨(state.field? "cycle").getD .null, (state.field? "pc").getD .null, value⟩
  | _ => none

/-- What snapshots tell of a register, those that do not hold it left out. -/
def sightings (name : String) (states : List Value) : List Sighting :=
  states.filterMap (sighting? name)

theorem registerOf_dict {entries registers : Entries}
    (named : (Entries.find? entries (.text "registers")).getD (.dict []) = .dict registers) (name : String) :
    registerOf name (.dict entries) = Entries.find? registers (.text name) := by
  rcases registers_field named with ⟨none, rfl⟩ | found
  · rw [registerOf, none]
    rfl
  · rw [registerOf, found]
    rfl

theorem registerIn_record {state : Value} (shaped : IsRecord state) (name : String) :
    registerIn state (.text name) = .ok (registerOf name state) := by
  obtain ⟨entries, registers, rfl, named⟩ := shaped
  have field : (Value.dict entries).field? "registers" = Entries.find? entries (.text "registers") := rfl
  unfold registerIn registerOf
  rw [Value.contains_dict, Entries.has, field]
  cases found : Entries.find? entries (.text "registers") with
  | none => rfl
  | some value =>
      rw [found] at named
      obtain rfl : value = .dict registers := named
      have inner : (Value.dict registers).field? name = Entries.find? registers (.text name) := rfl
      rw [Value.item_dict found, Option.bind_some, inner]
      simp only [Option.isSome_some, bind, Except.bind, if_true]
      rw [Value.contains_dict, Entries.has]
      cases held : Entries.find? registers (.text name) with
      | none => rfl
      | some value => simp [Value.item_dict held, pure, Except.pure]

/-! ### Changes between snapshots -/

/-- The change from one sighting to the next, if there is one. -/
def between (before after : Sighting) : Option Change :=
  if after.value = before.value then none
  else some ⟨after.cycle, after.counter, .int before.value, .int after.value⟩

/-- The changes from each sighting to the next. -/
def changesOf : List Sighting → List Change
  | before :: after :: rest => (between before after).toList ++ changesOf (after :: rest)
  | _ => []

theorem changesOf_cons (before after : Sighting) (rest : List Sighting) :
    changesOf (before :: after :: rest) = (between before after).toList ++ changesOf (after :: rest) := rfl

theorem changesOf_append (earlier later : List Sighting) (here : Sighting) :
    changesOf (earlier ++ here :: later) = changesOf (earlier ++ [here]) ++ changesOf (here :: later) := by
  induction earlier with
  | nil => rfl
  | cons first rest ih =>
      cases rest with
      | nil => simp [changesOf_cons, changesOf]
      | cons second more =>
          simp only [List.cons_append, changesOf_cons, List.append_assoc] at ih ⊢
          rw [ih]

theorem changesOf_before (before : Option Sighting) (here : Sighting) (later : List Sighting) :
    changesOf (before.toList ++ here :: later) =
      (before.bind fun sight => between sight here).toList ++ changesOf (here :: later) := by
  cases before <;> rfl

theorem between_cycle {before after : Sighting} {change : Change} (member : change ∈ (between before after).toList) :
    change.cycle = after.cycle := by
  unfold between at member
  split at member
  · exact nomatch member
  · rw [List.mem_singleton.mp member]

/-- Each change has the cycle of a sighting that is not the first. -/
theorem changesOf_cycle {first : Sighting} {rest : List Sighting} {change : Change}
    (member : change ∈ changesOf (first :: rest)) : ∃ sight ∈ rest, change.cycle = sight.cycle := by
  induction rest generalizing first with
  | nil => exact nomatch member
  | cons second more ih =>
      rw [changesOf_cons] at member
      rcases List.mem_append.mp member with here | later
      · exact ⟨second, List.mem_cons_self, between_cycle here⟩
      · obtain ⟨sight, inside, same⟩ := ih later
        exact ⟨sight, List.mem_cons_of_mem _ inside, same⟩

/-- The value after changes one after another, each of which has to start from the value before it. -/
def follow (value : Value) : List Change → Option Value
  | [] => some value
  | change :: rest => if change.old.same value then follow change.new rest else none

theorem follow_between (before after : Sighting) (later : List Change) :
    follow (.int before.value) ((between before after).toList ++ later) = follow (.int after.value) later := by
  unfold between
  split
  case isTrue same => rw [same, Option.toList_none, List.nil_append]
  case isFalse => simp [follow, Value.same_int]

/-- The changes up to a sighting lead from the first value to the one seen there. -/
theorem follow_changesOf {earlier : List Sighting} {first here : Sighting}
    (starts : (earlier ++ [here]).head? = some first) :
    follow (.int first.value) (changesOf (earlier ++ [here])) = some (.int here.value) := by
  induction earlier generalizing first with
  | nil =>
      cases starts
      rfl
  | cons second more ih =>
      cases starts
      cases more with
      | nil =>
          rw [List.cons_append, List.nil_append, changesOf_cons, follow_between]
          rfl
      | cons third others =>
          rw [List.cons_append, List.cons_append, changesOf_cons, follow_between]
          exact ih rfl

/-! ### The list of changes -/

/-- The value that a register had in a snapshot, if there was one. -/
def lastOf : Option Sighting → Value
  | none => .null
  | some sight => .int sight.value

variable {name : String} {state : Value} {states rest : List Value} {start stop : Value} {before : Option Sighting}
  {here : Sighting}

theorem registerOf_unseen (numbered : IsNumbered name state) (unseen : sighting? name state = none) :
    registerOf name state = none := by
  unfold sighting? at unseen
  cases found : registerOf name state with
  | none => rfl
  | some value =>
      obtain ⟨number, rfl⟩ := numbered.2 value found
      rw [found] at unseen
      cases unseen

theorem registerOf_seen (seen : sighting? name state = some here) :
    registerOf name state = some (.int here.value) ∧ here.cycle = (state.field? "cycle").getD .null ∧
      here.counter = (state.field? "pc").getD .null := by
  unfold sighting? at seen
  split at seen
  case h_1 found =>
    cases seen
    exact ⟨found, rfl, rfl⟩
  case h_2 => cases seen

/-- A snapshot that does not hold the register is passed over. -/
theorem changesFrom_unseen (numbered : IsNumbered name state) (unseen : sighting? name state = none)
    (last : Value) :
    changesFrom (.text name) start stop last (state :: rest) = changesFrom (.text name) start stop last rest := by
  rw [changesFrom, registerIn_record numbered.1, registerOf_unseen numbered unseen]
  rfl

/-- A snapshot that holds the register gives its change, if it lies in the window, and closes the list, if
it lies after that. -/
theorem changesFrom_seen (shaped : IsRecord state) (seen : sighting? name state = some here) {early late : Bool}
    (sooner : isBefore here.cycle start = .ok early) (later : isAfter here.cycle stop = .ok late) :
    changesFrom (.text name) start stop (lastOf before) (state :: rest) =
      if early then changesFrom (.text name) start stop (lastOf (some here)) rest
      else if late then .ok []
      else (changesFrom (.text name) start stop (lastOf (some here)) rest).map
        ((before.bind fun sight => between sight here).toList ++ ·) := by
  obtain ⟨found, cycle, counter⟩ := registerOf_seen seen
  have cycled : state.getOr "cycle" .null = .ok here.cycle := by
    obtain ⟨entries, -, rfl, -⟩ := shaped
    exact congrArg Except.ok cycle.symm
  have counted : state.getOr "pc" .null = .ok here.counter := by
    obtain ⟨entries, -, rfl, -⟩ := shaped
    exact congrArg Except.ok counter.symm
  rw [changesFrom, registerIn_record shaped, found]
  simp only [bind, Except.bind, cycled, sooner, later, counted]
  cases early with
  | true => rfl
  | false =>
  cases late with
  | true => rfl
  | false =>
  rw [show lastOf (some here) = .int here.value from rfl]
  generalize changesFrom (.text name) start stop (.int here.value) rest = others
  cases before with
  | none => cases others <;> rfl
  | some sight =>
      have equal : (Value.int here.value).same (.int sight.value) = decide (here.value = sight.value) :=
        Value.same_int here.value sight.value
      by_cases same : here.value = sight.value
      · simp only [lastOf, equal, between, Option.bind_some, decide_eq_true same, if_pos same]
        cases others <;> rfl
      · simp only [lastOf, equal, between, Option.bind_some, decide_eq_false same, if_neg same]
        cases others <;> rfl

/-- The cycle of a change lies neither before nor after a window. -/
def lies (early late : Value → Bool) (change : Change) : Bool :=
  !early change.cycle && !late change.cycle

variable {early late : Value → Bool}

/-- The change to a sighting lies in a window if the sighting does. -/
theorem lies_here (before : Option Sighting) (here : Sighting) :
    (before.bind fun sight => between sight here).toList.filter (lies early late) =
      if !early here.cycle && !late here.cycle then (before.bind fun sight => between sight here).toList
      else [] := by
  cases found : before.bind fun sight => between sight here with
  | none => simp
  | some change =>
      obtain ⟨sight, -, step⟩ := Option.bind_eq_some_iff.mp found
      have same : change.cycle = here.cycle := between_cycle (Option.mem_toList.mpr step)
      rw [Option.toList_some, List.filter_singleton, lies, same, Bool.cond_eq_ite]

/-- No change lies in a window if all sightings but the first lie after it. -/
theorem lies_after {later : List Sighting} (here : Sighting)
    (after : ∀ sight ∈ later, late sight.cycle = true) :
    (changesOf (here :: later)).filter (lies early late) = [] := by
  refine List.filter_eq_nil_iff.mpr fun change member => ?_
  obtain ⟨sight, inside, same⟩ := changesOf_cycle member
  simp [lies, same, after sight inside]

/-- With any ends that cycles can be compared with, the list has the changes that lie between them, if later
sightings than one after the end lie after it as well. -/
theorem changesFrom_lies (numbered : ∀ state ∈ states, IsNumbered name state)
    (compared : ∀ sight ∈ sightings name states,
      isBefore sight.cycle start = .ok (early sight.cycle) ∧ isAfter sight.cycle stop = .ok (late sight.cycle))
    (closed : (sightings name states).Pairwise fun first second => late first.cycle → late second.cycle)
    (before : Option Sighting) :
    changesFrom (.text name) start stop (lastOf before) states =
      .ok ((changesOf (before.toList ++ sightings name states)).filter (lies early late)) := by
  induction states generalizing before with
  | nil => cases before <;> rfl
  | cons state rest ih =>
      obtain ⟨proper, others⟩ := List.forall_mem_cons.mp numbered
      cases seen : sighting? name state with
      | none =>
          have passed : sightings name (state :: rest) = sightings name rest := List.filterMap_cons_none seen
          rw [changesFrom_unseen proper seen, passed]
          rw [passed] at compared closed
          exact ih others compared closed before
      | some here =>
          have met : sightings name (state :: rest) = here :: sightings name rest := List.filterMap_cons_some seen
          rw [met] at compared closed ⊢
          obtain ⟨⟨sooner, later⟩, comparable⟩ := List.forall_mem_cons.mp compared
          obtain ⟨after, still⟩ := List.pairwise_cons.mp closed
          rw [changesFrom_seen proper.1 seen sooner later, ih others comparable still (some here),
            changesOf_before, List.filter_append, lies_here]
          cases first : early here.cycle with
          | true => rfl
          | false =>
          cases last : late here.cycle with
          | false => rfl
          | true =>
              rw [lies_after here fun sight member => after sight member last]
              rfl

/-! ### Windows -/

/-- The end of a window, if it is given. -/
def endOf : Option Int → Value
  | none => .null
  | some cycle => .int cycle

/-- A cycle is in a window; an end that is not given leaves it open. -/
def inWindow (start stop : Option Int) : Value → Bool
  | .int cycle => start.all (· ≤ cycle) && stop.all (cycle ≤ ·)
  | _ => true

def isEarly (start : Option Int) : Value → Bool
  | .int cycle => start.any (cycle < ·)
  | _ => false

def isLate (stop : Option Int) : Value → Bool
  | .int cycle => stop.any (· < cycle)
  | _ => false

theorem isBefore_int (cycle : Int) (start : Option Int) :
    isBefore (.int cycle) (endOf start) = .ok (isEarly start (.int cycle)) := by
  cases start with
  | none => rfl
  | some first => exact Value.less_int cycle first

theorem isAfter_int (cycle : Int) (stop : Option Int) :
    isAfter (.int cycle) (endOf stop) = .ok (isLate stop (.int cycle)) := by
  cases stop with
  | none => rfl
  | some last => exact Value.less_int last cycle

theorem isLate_mono {first second : Int} (ordered : first ≤ second) (stop : Option Int)
    (late : isLate stop (.int first) = true) : isLate stop (.int second) = true := by
  cases stop with
  | none => exact late
  | some last => exact decide_eq_true (Int.lt_of_lt_of_le (of_decide_eq_true late) ordered)

/-- A change lies in a window if its cycle is in it. -/
theorem lies_window (start stop : Option Int) :
    lies (isEarly start) (isLate stop) = fun change => inWindow start stop change.cycle := by
  funext change
  unfold lies
  cases change.cycle
  case int cycle => cases start <;> cases stop <;> simp [isEarly, isLate, inWindow, ← decide_not]
  all_goals rfl

/-- Without a window all changes are listed. -/
theorem changes_all {recorder : Recorder} {name : String}
    (numbered : ∀ state ∈ recorder.history.toList, IsNumbered name state) :
    recorder.changes (.text name) .null .null = .ok (changesOf (sightings name recorder.history.toList)) := by
  let sights := sightings name recorder.history.toList
  have never (sight : Sighting) (_ : sight ∈ sights) :
      isBefore sight.cycle .null = .ok false ∧ isAfter sight.cycle .null = .ok false := ⟨rfl, rfl⟩
  have closed : sights.Pairwise fun _ _ => false = true → false = true := List.pairwise_of_forall fun _ _ => id
  have listed : changesFrom (.text name) .null .null (lastOf none) recorder.history.toList =
      .ok ((changesOf sights).filter (lies (fun _ => false) fun _ => false)) :=
    changesFrom_lies numbered never closed none
  have everywhere : (changesOf sights).filter (lies (fun _ => false) fun _ => false) = changesOf sights :=
    List.filter_eq_self.mpr fun _ _ => rfl
  rw [everywhere] at listed
  exact listed

/-- The list of changes has each snapshot whose value differs from the one before, and can be followed from the
first value to that of every snapshot. With cycles that never decrease, a window leaves the changes in it. -/
theorem changes_complete {recorder : Recorder} {name : String}
    (numbered : ∀ state ∈ recorder.history.toList, IsNumbered name state) :
    let sights := sightings name recorder.history.toList
    recorder.changes (.text name) .null .null = .ok (changesOf sights) ∧
    (∀ earlier here later first, sights = earlier ++ here :: later → sights.head? = some first →
      changesOf (earlier ++ [here]) <+: changesOf sights ∧
        follow (.int first.value) (changesOf (earlier ++ [here])) = some (.int here.value)) ∧
    ∀ cycles : List Int, sights.map Sighting.cycle = cycles.map .int → cycles.Pairwise (· ≤ ·) →
      ∀ start stop, recorder.changes (.text name) (endOf start) (endOf stop) =
        .ok ((changesOf sights).filter fun change => inWindow start stop change.cycle) := by
  intro sights
  refine ⟨?_, fun earlier here later first split starts => ⟨?_, ?_⟩, fun cycles whole ordered start stop => ?_⟩
  · exact changes_all numbered
  · rw [split, changesOf_append earlier later here]
    exact List.prefix_append _ _
  · refine follow_changesOf ?_
    rw [split] at starts
    cases earlier <;> exact starts
  · have compared (sight : Sighting) (member : sight ∈ sights) :
        isBefore sight.cycle (endOf start) = .ok (isEarly start sight.cycle) ∧
          isAfter sight.cycle (endOf stop) = .ok (isLate stop sight.cycle) := by
      have among : sight.cycle ∈ cycles.map .int := whole ▸ List.mem_map_of_mem member
      obtain ⟨cycle, -, same⟩ := List.mem_map.mp among
      rw [← same]
      exact ⟨isBefore_int cycle start, isAfter_int cycle stop⟩
    have closed : sights.Pairwise fun first second =>
        isLate stop first.cycle = true → isLate stop second.cycle = true := by
      refine List.pairwise_map.mp (?_ : (sights.map Sighting.cycle).Pairwise fun first second =>
        isLate stop first = true → isLate stop second = true)
      rw [whole, List.pairwise_map]
      exact ordered.imp fun less => isLate_mono less stop
    rw [← lies_window]
    exact changesFrom_lies numbered compared closed none

/-- Four snapshots, two of them of one cycle, and a window of that cycle. -/
theorem changes_in_cycle :
    ∃ fresh, make (.int 4) (.int 1) .null = .ok fresh ∧
      let recorder := fresh.performed [.record (view 4 [("V0", .int 1)]), .record (view 5 [("V0", .int 1)]),
        .record (view 5 [("V0", .int 2)]), .record (view 6 [("V0", .int 1)])]
      recorder.changes (.text "V0") .null .null =
          .ok [⟨.int 5, .null, .int 1, .int 2⟩, ⟨.int 6, .null, .int 2, .int 1⟩] ∧
        recorder.changes (.text "V0") (.int 5) (.int 5) = .ok [⟨.int 5, .null, .int 1, .int 2⟩] ∧
        follow (.int 1) [⟨.int 5, .null, .int 1, .int 2⟩, ⟨.int 6, .null, .int 2, .int 1⟩] = some (.int 1) := by
  refine ⟨_, make_whole 1 .null (show limitOf (.int 4) = .ok (some 4) from rfl), ?_⟩
  intro recorder
  have held : recorder.history.toList =
      [view 4 [("V0", .int 1)], view 5 [("V0", .int 1)], view 5 [("V0", .int 2)], view 6 [("V0", .int 1)]] := rfl
  have numbered : ∀ state ∈ recorder.history.toList, IsNumbered "V0" state := by
    rw [held]
    have one (cycle number : Int) : IsNumbered "V0" (view cycle [("V0", .int number)]) :=
      ⟨⟨_, _, rfl, rfl⟩, fun value found => ⟨number, (Option.some.inj found).symm⟩⟩
    simp [one]
  obtain ⟨listed, followed, windowed⟩ := changes_complete numbered
  have window := windowed [4, 5, 5, 6] rfl (by decide) (some 5) (some 5)
  have replayed := followed _ _ [] _ (show _ = [_, _, _] ++ [_] from rfl) rfl
  exact ⟨listed, window, replayed.2⟩

end ChipEight.Recorder
