/-
This file says which counts of a recorder a saved history gives back. The count of records is saved, but
the count of cycles and the names of the registers are told anew from the snapshots that are held.
-/

import ChipEight.Proofs.Recorder.Checkpoint

namespace ChipEight.Recorder

/-- The names of the counts that every saved history gives back. -/
def lastingCounts : List String :=
  ["total_records", "current_history_size", "max_history_size", "compression_ratio",
    "compressed_history_size"]

variable {one other : Recorder} {samples : List Value} {statistics : Value}

/-- Counts that are given are those of the cycles, the samples and the names. -/
theorem statistics_parts (listed : one.compressed = .list samples)
    (given : one.statistics = .ok statistics) :
    ∃ cycles names, one.totalCycles = .ok cycles ∧ one.sortedRegisters = .ok names ∧
      statistics = .dict (counts one cycles samples.length names) := by
  have length : one.compressed.length = .ok samples.length := by
    rw [listed]
    rfl
  unfold Recorder.statistics at given
  cases counted : one.totalCycles with
  | error fault =>
      rw [counted] at given
      cases given
  | ok cycles =>
      cases sorted : one.sortedRegisters with
      | error fault =>
          rw [counted, length, sorted] at given
          cases given
      | ok names =>
          rw [counted, length, sorted] at given
          cases given
          exact ⟨cycles, names, rfl, rfl, rfl⟩

/-- Recorders that are alike give the same counts of all but cycles and names. -/
theorem statistics_lasting (alike : Alike one other) (listed : one.compressed = .list samples)
    {others : Value} (here : one.statistics = .ok statistics) (there : other.statistics = .ok others)
    {name : String} (lasting : name ∈ lastingCounts) :
    others.field? name = statistics.field? name := by
  obtain ⟨cycles, names, -, -, rfl⟩ := statistics_parts listed here
  obtain ⟨count, known, -, -, rfl⟩ := statistics_parts (alike.parts.2.1.trans listed) there
  obtain ⟨first, last, registers, rfl⟩ := alike
  simp only [lastingCounts, List.mem_cons, List.not_mem_nil, or_false] at lasting
  rcases lasting with rfl | rfl | rfl | rfl | rfl <;> rfl

/-- Recorders that are alike give the same counts if they count the same cycles and know the same
names. -/
theorem statistics_iff (alike : Alike one other) (listed : one.compressed = .list samples)
    (given : one.statistics = .ok statistics) :
    other.statistics = .ok statistics ↔
      other.totalCycles = one.totalCycles ∧ other.sortedRegisters = one.sortedRegisters := by
  have samplesListed : other.compressed = .list samples := alike.parts.2.1.trans listed
  obtain ⟨cycles, names, counted, sorted, rfl⟩ := statistics_parts listed given
  constructor
  · intro same
    obtain ⟨others, known, count, order, whole⟩ := statistics_parts samplesListed same
    injection whole with entries
    simp only [counts, Value.texts, List.cons.injEq, Prod.mk.injEq, Value.list.injEq] at entries
    obtain ⟨-, ⟨-, cycled⟩, -, -, -, -, ⟨-, texts⟩, -⟩ := entries
    have named : names = known :=
      List.map_injective_iff.mpr (fun _ _ same => Value.text.inj same) texts
    rw [counted, sorted, count, order, cycled, named]
    exact ⟨rfl, rfl⟩
  · rintro ⟨count, order⟩
    obtain ⟨first, last, registers, rfl⟩ := alike
    exact statistics_counts (count.trans counted) samplesListed (order.trans sorted)

theorem recalled_alike (recorder : Recorder) : Alike recorder recorder.recalled :=
  ⟨_, _, _, rfl⟩

/-- A recorder that is cleared is as it was when it was made. -/
theorem clear_performed {kind : Kind} {fresh : Recorder} {limit ratio filter : Value}
    (made : make limit ratio filter = .ok fresh) {deeds : List Deed}
    (given : ∀ state, .record state ∈ deeds → kind.has state) :
    (fresh.performed deeds).clear = fresh := by
  have settings : (fresh.performed deeds).settings = fresh.settings :=
    (reached_performed made given).settings
  obtain ⟨most, step, -, rfl⟩ := make_cases made
  generalize Recorder.performed _ deeds = recorder at settings
  simp only [Recorder.settings, Prod.mk.injEq] at settings
  obtain ⟨rfl, rfl, rfl, rfl⟩ := settings
  rfl

/-- A history that is saved and loaded gives back the counts of its records, its sizes and its settings.
It gives back all counts exactly if the snapshots that are held count the same cycles and name the same
registers as all that were seen, and so they do if since the last clearing none was refused or given up
and none had an empty cycle. -/
theorem saved_statistics (form : Form) (depths : Depths) {limit ratio filter : Value} {fresh : Recorder}
    (made : make limit ratio filter = .ok fresh) {deeds : List Deed}
    (given : ∀ state, .record state ∈ deeds → form.kind.has state)
    (fits : form.Fits fresh deeds.length) {files : Files} {path : String}
    (named : Text.lower (Path.extension path) ∈ form.extensions)
    (opens : (files.makeParent path).result = .ok ())
    (accepts : ∀ content, ∃ after, (files.makeParent path).files.write path content = .ok after) :
    let recorder := fresh.performed deeds
    let saved := recorder.save depths files (.text path) (.text form.format)
    let loaded := fresh.load saved.files (.text path)
    saved.result = .ok true → loaded.result = .ok true ∧
      ∃ statistics, recorder.statistics = .ok statistics ∧
        (∀ others, loaded.recorder.statistics = .ok others →
          ∀ name ∈ lastingCounts, others.field? name = statistics.field? name) ∧
        (loaded.recorder.statistics = .ok statistics ↔
          recorder.recalled.totalCycles = recorder.totalCycles ∧
          recorder.recalled.sortedRegisters = recorder.sortedRegisters) ∧
        ∀ before since, deeds = since ∨ deeds = before ++ .clear :: since → fresh.KeepsAll since →
          loaded.recorder.statistics = .ok statistics := by
  intro recorder saved loaded done
  have reached : Reached form.kind fresh deeds.length recorder := reached_performed made given
  obtain ⟨⟨cycles, counted⟩, shallow⟩ := (save_done_iff form reached made fits opens accepts named).mp done
  obtain ⟨-, ends, same⟩ :
      saved.result = .ok true ∧ loaded.result = .ok true ∧ loaded.recorder = recorder.recalled :=
    save_recalled form reached made fits opens accepts named counted shallow
  obtain ⟨samples, listed, -⟩ := reached.samples
  obtain ⟨names, texts, -⟩ := texts_of_keys reached.names
  have whole : recorder.statistics =
      .ok (.dict (counts recorder cycles samples.length (sortedTexts names))) :=
    statistics_counts counted listed (sortedRegisters_texts texts)
  rw [same]
  refine ⟨ends, _, whole, ?_, statistics_iff recorder.recalled_alike listed whole, ?_⟩
  · intro others there name lasting
    exact statistics_lasting recorder.recalled_alike listed whole there lasting
  · intro before since course keeps
    have again : recorder = fresh.performed since := by
      rcases course with rfl | rfl
      · rfl
      · have cleared : (fresh.performed before).clear = fresh :=
          clear_performed made fun state member => given state (List.mem_append_left _ member)
        change fresh.performed (before ++ .clear :: since) = fresh.performed since
        rw [performed, List.foldl_append, List.foldl_cons]
        exact congrArg (performed · since) cleared
    have remembers : (fresh.performed since).Remembers := by
      refine Remembers.performed ?_ (fun state member => form.kind.mapping state (given state ?_)) keeps
      · obtain ⟨most, step, -, rfl⟩ := make_cases made
        exact clear_remembers ⟨most, limit, step, filter, #[], .list [], .int 0, .null, .null, []⟩
      · rcases course with rfl | rfl
        · exact member
        · exact List.mem_append_right _ (List.mem_cons_of_mem _ member)
    rw [again, remembers.whole, ← again]
    exact whole

/-- The first file of all can be written, and it is read as a page if it is named so. -/
theorem first_page : Text.lower (Path.extension "h.json") ∈ Form.page.extensions ∧
    (Files.makeParent ⟨[]⟩ "h.json").result = .ok () ∧
    ∀ content, ∃ after, (Files.makeParent ⟨[]⟩ "h.json").files.write "h.json" content = .ok after := by
  have named : Files.IsName "h.json" := by constructor <;> decide
  have free : Files.node? ⟨[]⟩ ["h.json"] ≠ some .directory := nofun
  exact ⟨by decide +kernel, rfl, fun content => ⟨_, Files.write_name named free content⟩⟩

/-- A recorder of four snapshots that was cleared once. -/
theorem saved_statistics_page :
    ∃ fresh, make (.int 4) (.int 10) .null = .ok fresh ∧
      let recorder := fresh.performed
        [.record (glance 5 1), .clear, .record (glance 6 2), .record (glance 8 3)]
      let saved := recorder.save .usual ⟨[]⟩ (.text "h.json") (.text "json")
      let loaded := fresh.load saved.files (.text "h.json")
      saved.result = .ok true ∧ loaded.result = .ok true ∧
        ∃ statistics, recorder.statistics = .ok statistics ∧
          loaded.recorder.statistics = .ok statistics := by
  have made := make_whole 10 .null (show limitOf (.int 4) = .ok (some 4) from rfl)
  refine ⟨_, made, ?_⟩
  have given : ∀ state, Deed.record state ∈
      [.record (glance 5 1), .clear, .record (glance 6 2), .record (glance 8 3)] →
        Form.page.kind.has state := by
    simp only [List.mem_cons, Deed.record.injEq, List.not_mem_nil, or_false, reduceCtorEq, false_or]
    rintro state (rfl | rfl | rfl) <;> exact glance_paged (by decide) (by decide)
  generalize start : (⟨some 4, .int 4, .int (max 1 10), .null, #[], .list [], .int 0, .null, .null, []⟩ :
    Recorder) = fresh at made ⊢
  intro recorder saved loaded
  have counted : recorder.totalCycles = .ok (.int 2) :=
    totalCycles_int (show recorder.firstCycle = .int 6 by subst start; rfl)
      (show recorder.lastCycle = .int 8 by subst start; rfl) (by decide)
  have fits : Form.page.Fits fresh 4 :=
    ⟨by subst start; exact shown_of_index (by decide),
      shown_of_index (show Slice.isIndex 4 = true by decide)⟩
  obtain ⟨named, opens, accepts⟩ := first_page
  have shallow : ∀ state, recorder.Holds state → state.depth + 2 ≤ Form.page.depth .usual :=
    glances_shallow .page [(6, 2), (8, 3)] [] (by subst start; rfl)
      (by subst start; rfl)
  have done : saved.result = .ok true :=
    (save_done_iff .page (reached_performed made given) made fits opens accepts named).mpr
      ⟨⟨_, counted⟩, shallow⟩
  obtain ⟨ends, statistics, whole, -, -, resumed⟩ :=
    saved_statistics .page .usual made given fits named opens accepts done
  refine ⟨done, ends, statistics, whole, ?_⟩
  refine resumed [.record (glance 5 1)] [.record (glance 6 2), .record (glance 8 3)] (.inr rfl) ?_
  subst start
  have room (size most : Nat) (less : size < most) : ∀ bound, some most = some bound → size < bound :=
    fun bound same => Option.some.inj same ▸ less
  exact ⟨⟨rfl, room 0 4 (by decide), nofun⟩, ⟨rfl, room 1 4 (by decide), nofun⟩, trivial⟩

/-- A recorder that holds one snapshot and has seen two counts the cycles from one to the other, but none
when it is loaded. -/
theorem surrendered_snapshot_uncounted :
    ∃ fresh, make (.int 1) (.int 10) .null = .ok fresh ∧
      let recorder := fresh.performed [.record (glance 5 1), .record (glance 6 2)]
      let saved := recorder.save .usual ⟨[]⟩ (.text "h.json") (.text "json")
      let loaded := fresh.load saved.files (.text "h.json")
      saved.result = .ok true ∧ loaded.result = .ok true ∧
        ∃ statistics others, recorder.statistics = .ok statistics ∧
          loaded.recorder.statistics = .ok others ∧
          statistics.field? "total_cycles" = some (.int 1) ∧
          others.field? "total_cycles" = some (.int 0) := by
  have made := make_whole 10 .null (show limitOf (.int 1) = .ok (some 1) from rfl)
  refine ⟨_, made, ?_⟩
  have given : ∀ state, Deed.record state ∈ [.record (glance 5 1), .record (glance 6 2)] →
      Form.page.kind.has state := by
    simp only [List.mem_cons, Deed.record.injEq, List.not_mem_nil, or_false]
    rintro state (rfl | rfl) <;> exact glance_paged (by decide) (by decide)
  generalize start : (⟨some 1, .int 1, .int (max 1 10), .null, #[], .list [], .int 0, .null, .null, []⟩ :
    Recorder) = fresh at made ⊢
  intro recorder saved loaded
  have counted : recorder.totalCycles = .ok (.int 1) :=
    totalCycles_int (show recorder.firstCycle = .int 5 by subst start; rfl)
      (show recorder.lastCycle = .int 6 by subst start; rfl) (by decide)
  have recounted : recorder.recalled.totalCycles = .ok (.int 0) :=
    totalCycles_int (show recorder.recalled.firstCycle = .int 6 by subst start; rfl)
      (show recorder.recalled.lastCycle = .int 6 by subst start; rfl) (by decide)
  have fits : Form.page.Fits fresh 2 :=
    ⟨by subst start; exact shown_of_index (by decide),
      shown_of_index (show Slice.isIndex 2 = true by decide)⟩
  obtain ⟨named, opens, accepts⟩ := first_page
  have shallow : ∀ state, recorder.Holds state → state.depth + 2 ≤ Form.page.depth .usual :=
    glances_shallow .page [(6, 2)] [] (by subst start; rfl) (by subst start; rfl)
  obtain ⟨done, ends, same⟩ :=
    save_recalled .page (reached_performed made given) made fits opens accepts named counted shallow
  have listed : recorder.compressed = .list [] := by subst start; rfl
  have sorted : recorder.sortedRegisters = .ok (sortedTexts ["V0"]) :=
    sortedRegisters_texts (show recorder.registers = ["V0"].map .text by subst start; rfl)
  have resorted : recorder.recalled.sortedRegisters = .ok (sortedTexts ["V0"]) :=
    sortedRegisters_texts (show recorder.recalled.registers = ["V0"].map .text by subst start; rfl)
  exact ⟨done, ends, _, _, statistics_counts counted listed sorted,
    (congrArg Recorder.statistics same).trans (statistics_counts recounted listed resorted), rfl, rfl⟩

end ChipEight.Recorder
