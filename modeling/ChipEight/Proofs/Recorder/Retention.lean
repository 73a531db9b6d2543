/-
This file compares what a recorder holds with the log of all snapshots since the last clearing: the latest of them,
one of several, and what their cycles and registers were, whatever has been given up meanwhile.
-/

import ChipEight.Proofs.Incidents.History
import ChipEight.Proofs.Recorder.Recalling
import ChipEight.Proofs.Recorder.Steady

namespace ChipEight.Recorder

/-! ### What a filter leaves -/

/-- A snapshot with only those of its registers that a list of names holds. -/
def sifted (filter state : Value) : Value :=
  match filter, state with
  | .list items, .dict entries =>
      match Entries.find? entries (.text "registers") with
      | some (.dict registers) =>
          let wanted := registers.filter fun entry => items.any fun item => item.same entry.1.toValue
          .dict (Entries.put entries (.text "registers") (.dict wanted))
      | _ => state
  | _, _ => state

/-- A list of names never fails to sift a snapshot, and leaves one. -/
theorem filtered_sifted {filter state : Value} (picks : filter = .null ∨ ∃ items, filter = .list items)
    (shaped : IsRecord state) : filtered filter state = .ok (sifted filter state) ∧ IsRecord (sifted filter state) := by
  rcases picks with rfl | ⟨items, rfl⟩
  · exact ⟨rfl, shaped⟩
  obtain ⟨entries, registers, rfl, named⟩ := shaped
  unfold filtered sifted
  dsimp only
  rw [Value.contains_dict, Entries.has]
  cases found : Entries.find? entries (.text "registers") with
  | none => exact ⟨rfl, entries, registers, rfl, named⟩
  | some value =>
      rw [found] at named
      obtain rfl : value = .dict registers := named
      simp only [Option.isSome_some, Value.copied, Value.item_dict found, Value.entriesOf, chosen_eq, bind,
        Except.bind, pure, Except.pure, if_true, true_and]
      exact ⟨_, _, rfl, by rw [Entries.findPutSame]; rfl⟩

/-! ### Functions of a log -/

section

variable {A : Type}

/-- The items whose numbers, from one on, are multiples of a step. -/
def everyNth (step : Nat) (items : List A) : List A :=
  (List.range (items.length / step)).filterMap fun index => items[step * (index + 1) - 1]?

theorem everyNth_snoc {step : Nat} (positive : 0 < step) (items : List A) (item : A) :
    everyNth step (items ++ [item]) =
      everyNth step items ++ if (items.length + 1) % step = 0 then [item] else [] := by
  have before (index : Nat) (member : index ∈ List.range (items.length / step)) :
      (items ++ [item])[step * (index + 1) - 1]? = items[step * (index + 1) - 1]? := by
    have few : index + 1 ≤ items.length / step := List.mem_range.mp member
    have inside : step * (index + 1) ≤ items.length :=
      (Nat.mul_le_mul_left step few).trans (Nat.mul_div_le items.length step)
    have present : 0 < step * (index + 1) := Nat.mul_pos positive (Nat.succ_pos index)
    rw [List.getElem?_append_left (by omega)]
  unfold everyNth
  rw [List.length_append, List.length_singleton, Nat.succ_div]
  by_cases multiple : step ∣ items.length + 1
  · have last : step * (items.length / step + 1) - 1 = items.length := by
      have whole := Nat.mul_div_cancel' multiple
      rw [Nat.succ_div, if_pos multiple] at whole
      omega
    rw [if_pos multiple, if_pos (Nat.mod_eq_zero_of_dvd multiple), List.range_succ, List.filterMap_append,
      List.filterMap_congr before]
    simp [last]
  · rw [if_neg multiple, if_neg fun zero => multiple (Nat.dvd_of_mod_eq_zero zero), Nat.add_zero, List.append_nil,
      List.filterMap_congr before]

end

/-- The first value that is not empty. -/
def firstOf : List Value → Value
  | [] => .null
  | .null :: rest => firstOf rest
  | value :: _ => value

theorem firstOf_snoc (values : List Value) (value : Value) :
    firstOf (values ++ [value]) = firstOf [firstOf values, value] := by
  induction values with
  | nil => rfl
  | cons first rest ih =>
      cases first
      case null => exact ih
      all_goals rfl

/-! ### Names of registers -/

theorem addNames_cons (known : List Key) (name : Key) (rest : List Key) :
    addNames known (name :: rest) =
      addNames (if known.any fun other => other.same name then known else known ++ [name]) rest := rfl

theorem any_same {known : List Key} {name : Key} :
    (known.any fun other => other.same name) = true ↔ name.face ∈ known.map Key.face := by
  simp [Key.same]

/-- The names that are known after others are those that were known and the others. -/
theorem face_mem_addNames (known names : List Key) (face : Face) :
    face ∈ (addNames known names).map Key.face ↔ face ∈ known.map Key.face ∨ face ∈ names.map Key.face := by
  induction names generalizing known with
  | nil => simp [addNames]
  | cons name rest ih =>
      rw [addNames_cons, ih, List.map_cons, List.mem_cons]
      split
      case isTrue there =>
        have old := any_same.mp there
        constructor
        · exact fun member => member.imp_right .inr
        · rintro (before | rfl | later)
          · exact .inl before
          · exact .inl old
          · exact .inr later
      case isFalse => simp [or_assoc]

theorem addNames_nodup {known : List Key} (names : List Key) (single : (known.map Key.face).Nodup) :
    ((addNames known names).map Key.face).Nodup := by
  induction names generalizing known with
  | nil => exact single
  | cons name rest ih =>
      rw [addNames_cons]
      refine ih ?_
      split
      · exact single
      case isFalse new =>
        rw [any_same] at new
        rw [List.map_append, List.nodup_append]
        refine ⟨single, List.pairwise_singleton _ _, ?_⟩
        rintro face member _ last rfl
        exact new (List.mem_singleton.mp last ▸ member)

/-- The names of all registers are known, each once. -/
theorem namesOf_complete (states : List Value) :
    ((namesOf states).map Key.face).Nodup ∧ ∀ face, face ∈ (namesOf states).map Key.face ↔
      ∃ state ∈ states, face ∈ (registersOf state).map Key.face := by
  induction states using List.reverseRecOn with
  | nil => exact ⟨List.nodup_nil, fun face => by simp [namesOf]⟩
  | append_singleton states last ih =>
      rw [namesOf_snoc]
      refine ⟨addNames_nodup _ ih.1, fun face => ?_⟩
      rw [face_mem_addNames, ih.2]
      simp [or_and_right, exists_or]

/-! ### Taking snapshots -/

variable {recorder : Recorder} {state : Value}

theorem namesIn_record (shaped : IsRecord state) : namesIn state = .ok (registersOf state) := by
  obtain ⟨entries, registers, rfl, named⟩ := shaped
  rcases namesIn_dict entries with ⟨names, -, given⟩ | broken
  · rw [given, namesIn_registersOf given]
  unfold namesIn at broken
  rw [Value.contains_dict, Entries.has] at broken
  cases found : Entries.find? entries (.text "registers") with
  | none =>
      rw [found] at broken
      cases broken
  | some value =>
      rw [found] at broken named
      cases named
      rw [Value.item_dict found] at broken
      cases broken

variable {count step : Int} {items : List Value}

/-- A snapshot that is a mapping, with a mapping of registers if it has any, is taken without a fault. -/
theorem record_whole (total : recorder.total = .int count) (ratio : recorder.ratio = .int step)
    (samples : recorder.compressed = .list items)
    (picks : recorder.filter = .null ∨ ∃ items, recorder.filter = .list items) (shaped : IsRecord state) :
    let kept := sifted recorder.filter state
    let seen := recorder.seeing (kept.field? "cycle")
    recorder.record state =
      ({ recorder with
          history := bounded recorder.limit (recorder.history.push kept)
          compressed := .list (items ++ if (count + 1) % step = 0 then [kept] else [])
          total := .int (count + 1)
          firstCycle := seen.firstCycle
          lastCycle := seen.lastCycle
          registers := addNames recorder.registers (registersOf kept) }, .ok ()) := by
  intro kept seen
  obtain ⟨picked, proper⟩ := filtered_sifted picks shaped
  have cycled : cycleIn kept = .ok (kept.field? "cycle") := by
    obtain ⟨entries, -, same, -⟩ := proper
    rw [show kept = .dict entries from same]
    exact cycleIn_dict entries
  have named : namesIn kept = .ok (registersOf kept) := namesIn_record proper
  have counted : recorder.total.successor = .ok (.int (count + 1)) := by
    rw [total]
    exact congrArg (fun next => Except.ok (Value.int next)) (Int.sub_neg count 1)
  let ready : Recorder := { recorder with
    total := .int (count + 1)
    firstCycle := seen.firstCycle
    lastCycle := seen.lastCycle
    registers := addNames recorder.registers (registersOf kept) }
  have noted : recorder.noted kept = (ready, .ok ()) := by
    simp only [noted, through, counted, Except.map, withCycle_eq, withRegisters_eq, cycled, named, ready,
      seen]
    cases kept.field? "cycle" <;> rfl
  have sampled := withSample_whole (show (ready.withSnapshot kept).total = .int (count + 1) from rfl) ratio
    samples kept
  unfold record
  rw [picked]
  dsimp only
  rw [noted]
  dsimp only [through]
  rw [sampled]
  rfl

/-! ### The log -/

namespace Deed

/-- The log of the snapshots since the last clearing, as a filter leaves them. -/
def logged (filter : Value) (log : List Value) : Deed → List Value
  | record state => log ++ [sifted filter state]
  | clear => []

end Deed

/-- The log after deeds one after another. -/
def logOf (filter : Value) (deeds : List Deed) : List Value :=
  deeds.foldl (Deed.logged filter) []

/-- The recorder holds what its settings say of a log: so many of the latest snapshots, and one of several. -/
structure Tracks (recorder : Recorder) (most step : Nat) (filter : Value) (log : List Value) : Prop where
  limit : recorder.limit = some most
  ratio : recorder.ratio = .int step
  filter : recorder.filter = filter
  history : recorder.history.toList = log.drop (log.length - most)
  compressed : recorder.compressed = .list (everyNth step log)
  total : recorder.total = .int log.length
  first : recorder.firstCycle = firstOf (cyclesOf log)
  last : recorder.lastCycle = (cyclesOf log).getLast?.getD .null
  registers : recorder.registers = namesOf log

variable {most ratio : Nat} {filter : Value} {log : List Value}

theorem bounded_toList (most : Nat) (items : Array Value) :
    (bounded (some most) items).toList = items.toList.drop (items.size - most) := by
  unfold bounded
  dsimp only
  split
  · rw [Array.toList_extract, List.extract_eq_take_drop]
    exact List.take_of_length_le (by simp)
  case isFalse few => rw [Nat.sub_eq_zero_of_le (Nat.le_of_not_lt few), List.drop_zero]

theorem seeing_firstOf {cycles : List Value} (first : recorder.firstCycle = firstOf cycles)
    (cycle : Option Value) : (recorder.seeing cycle).firstCycle = firstOf (cycles ++ cycle.toList) := by
  cases cycle with
  | none => rw [Option.toList_none, List.append_nil, seeing, first]
  | some cycle =>
      rw [Option.toList_some, firstOf_snoc, seeing, first]
      cases firstOf cycles
      case null => cases cycle <;> rfl
      all_goals rfl

theorem Tracks.record (tracks : recorder.Tracks most ratio filter log) (positive : 0 < ratio)
    (picks : filter = .null ∨ ∃ items, filter = .list items) (shaped : IsRecord state) :
    ∃ after, recorder.record state = (after, .ok ()) ∧
      after.Tracks most ratio filter (log ++ [sifted filter state]) := by
  obtain ⟨limit, step, rfl, history, samples, total, first, last, registers⟩ := tracks
  have due : ((log.length : Int) + 1) % ratio = 0 ↔ (log.length + 1) % ratio = 0 := by norm_cast
  refine ⟨_, record_whole total step samples picks shaped, limit, step, rfl, ?_, ?_, ?_, ?_, ?_, ?_⟩
  · dsimp only
    rw [limit, bounded_toList, Array.toList_push, Array.size_push, ← Array.length_toList, history]
    exact Incidents.drop_snoc log _ most
  · dsimp only
    simp only [everyNth_snoc positive, due]
  · simp
  · dsimp only
    rw [cyclesOf_snoc]
    exact seeing_firstOf first _
  · dsimp only
    rw [cyclesOf_snoc]
    exact (seeing_last last.symm _).symm
  · dsimp only
    rw [namesOf_snoc, registers]

/-- A recorder that is cleared holds what its settings say of an empty log. -/
theorem clear_tracks (limit : recorder.limit = some most) (step : recorder.ratio = .int ratio)
    (same : recorder.filter = filter) : recorder.clear.Tracks most ratio filter [] := by
  refine ⟨limit, step, same, List.drop_nil.symm, ?_, rfl, rfl, rfl, rfl⟩
  rw [everyNth, List.length_nil, Nat.zero_div]
  rfl

theorem Tracks.on {deed : Deed} (tracks : recorder.Tracks most ratio filter log) (positive : 0 < ratio)
    (picks : filter = .null ∨ ∃ items, filter = .list items)
    (given : ∀ state, deed = .record state → IsRecord state) :
    (deed.on recorder).Tracks most ratio filter (deed.logged filter log) := by
  cases deed with
  | record state =>
      obtain ⟨after, taken, tracked⟩ := tracks.record positive picks (given state rfl)
      change (recorder.record state).1.Tracks most ratio filter (log ++ [sifted filter state])
      rw [taken]
      exact tracked
  | clear => exact clear_tracks tracks.limit tracks.ratio tracks.filter

theorem Tracks.performed {deeds : List Deed} (tracks : recorder.Tracks most ratio filter log)
    (positive : 0 < ratio) (picks : filter = .null ∨ ∃ items, filter = .list items)
    (given : ∀ state, .record state ∈ deeds → IsRecord state) :
    (recorder.performed deeds).Tracks most ratio filter (deeds.foldl (Deed.logged filter) log) := by
  induction deeds generalizing recorder log with
  | nil => exact tracks
  | cons deed rest ih =>
      have next := tracks.on positive picks fun state same => given state (same ▸ List.mem_cons_self)
      exact ih next fun state member => given state (List.mem_cons_of_mem _ member)

theorem slice_whole (recorder : Recorder) : recorder.slice .null .null = .ok recorder.history.toList := by
  change Except.ok ((recorder.history.toList.take recorder.history.toList.length).drop 0) = _
  rw [List.take_length, List.drop_zero]

/-- Whatever a recorder is given, it takes; and what it holds and tells is what its settings say of the log of
all snapshots since the last clearing. Only a limit that is no index makes no recorder. -/
theorem retention_complete (most : Nat) (ratio : Int) {filter : Value}
    (picks : filter = .null ∨ ∃ items, filter = .list items) :
    (Slice.isIndex most = false → make (.int most) (.int ratio) filter = .error .tooLarge) ∧
    (Slice.isIndex most = true → ∃ fresh, make (.int most) (.int ratio) filter = .ok fresh ∧
      ∀ deeds, (∀ state, .record state ∈ deeds → IsRecord state) →
        let recorder := fresh.performed deeds
        let log := logOf filter deeds
        (∀ state, IsRecord state → (recorder.record state).2 = .ok ()) ∧
        recorder.slice .null .null = .ok (log.drop (log.length - most)) ∧
        recorder.compressed = .list (everyNth (max 1 ratio).toNat log) ∧
        recorder.total = .int log.length ∧
        recorder.firstCycle = firstOf (cyclesOf log) ∧
        recorder.lastCycle = (cyclesOf log).getLast?.getD .null ∧
        (recorder.registers.map Key.face).Nodup ∧
        ∀ face, face ∈ recorder.registers.map Key.face ↔
          ∃ state ∈ log, face ∈ (registersOf state).map Key.face) := by
  have limit : limitOf (.int most) = if !Slice.isIndex most then .error .tooLarge else .ok (some most) := rfl
  constructor
  · intro wide
    unfold make
    rw [Value.greater_int, limit, wide]
    rfl
  intro index
  rw [index] at limit
  let fresh : Recorder := ⟨some most, .int most, .int (max 1 ratio), filter, #[], .list [], .int 0, .null, .null, []⟩
  refine ⟨fresh, make_whole ratio filter limit, fun deeds given => ?_⟩
  intro recorder log
  have positive : 0 < (max 1 ratio).toNat := by omega
  have step : Value.int (max 1 ratio) = .int (max 1 ratio).toNat := congrArg Value.int (by omega)
  have start : fresh.clear.Tracks most (max 1 ratio).toNat filter [] := clear_tracks rfl step rfl
  have tracks : recorder.Tracks most (max 1 ratio).toNat filter log := start.performed positive picks given
  refine ⟨fun state shaped => ?_, ?_, tracks.compressed, tracks.total, tracks.first, tracks.last, ?_⟩
  · obtain ⟨after, taken, -⟩ := tracks.record positive picks shaped
    rw [taken]
  · rw [slice_whole, tracks.history]
  · rw [tracks.registers]
    exact namesOf_complete log

/-- A snapshot of a cycle with registers by name. -/
def view (cycle : Int) (registers : List (String × Value)) : Value :=
  Value.record [("cycle", .int cycle), ("registers", Value.record registers)]

/-- A recorder for one snapshot and one register, after one snapshot before it was cleared and two since. -/
theorem retention_of_two :
    ∃ fresh, make (.int 1) (.int 2) (.list [.text "V0"]) = .ok fresh ∧
      let recorder := fresh.performed [.record (view 4 [("V2", .int 0)]), .clear,
        .record (view 5 [("V0", .int 1), ("V1", .int 2)]), .record (view 6 [("V1", .int 2), ("V0", .int 3)])]
      recorder.slice .null .null = .ok [view 6 [("V0", .int 3)]] ∧
        recorder.compressed = .list [view 6 [("V0", .int 3)]] ∧ recorder.total = .int 2 ∧
        recorder.firstCycle = .int 5 ∧ recorder.lastCycle = .int 6 ∧
        ∀ face, face ∈ recorder.registers.map Key.face ↔ face = (Key.text "V0").face := by
  obtain ⟨fresh, made, complete⟩ := (retention_complete 1 2 (.inr ⟨[.text "V0"], rfl⟩)).2 rfl
  refine ⟨fresh, made, ?_⟩
  have given : ∀ state, Deed.record state ∈ [.record (view 4 [("V2", .int 0)]), .clear,
      .record (view 5 [("V0", .int 1), ("V1", .int 2)]), .record (view 6 [("V1", .int 2), ("V0", .int 3)])] →
      IsRecord state := by
    simp only [List.mem_cons, Deed.record.injEq, List.not_mem_nil, or_false, reduceCtorEq, false_or]
    rintro state (rfl | rfl | rfl) <;> exact ⟨_, _, rfl, rfl⟩
  obtain ⟨-, slice, compressed, total, first, last, -, names⟩ := complete _ given
  refine ⟨slice, compressed, total, first, last, fun face => ?_⟩
  rw [names face]
  change (∃ state ∈ [view 5 [("V0", .int 1)], view 6 [("V0", .int 3)]], _) ↔ _
  constructor
  · rintro ⟨state, member, known⟩
    rcases List.mem_pair.mp member with rfl | rfl <;> exact List.mem_singleton.mp known
  · rintro rfl
    exact ⟨_, List.mem_cons_self, List.mem_cons_self⟩

end ChipEight.Recorder
