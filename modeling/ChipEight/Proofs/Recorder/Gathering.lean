/-
This file follows snapshots of a kind that are gathered by a recorder: taken one by one, refused ones among them,
given up, or loaded from files. The recorder knows the registers of all snapshots that it holds.
-/

import ChipEight.Proofs.Recorder.Changes
import ChipEight.Proofs.Recorder.Checkpoint
import ChipEight.Proofs.Value.Alike

namespace ChipEight.Recorder

variable {recorder : Recorder} {state value : Value} {name : String}

/-! ### Snapshots of numbers -/

/-- What a snapshot has somewhere is a whole number. -/
def IsWhole (found : Option Value) : Prop := ∀ value, found = some value → ∃ number, value = .int number

/-- A mapping with whole numbers for some fields and for its registers, each of which it need not have. The names of
the registers are proper. -/
def IsNumeric (fields : List String) (proper : String → Prop) (state : Value) : Prop :=
  ∃ entries registers, state = .dict entries ∧
    (Entries.find? entries (.text "registers")).getD (.dict []) = .dict registers ∧
    (∀ name ∈ fields, IsWhole (Entries.find? entries (.text name))) ∧
    ∀ entry ∈ registers, ∃ name number, entry = (.text name, .int number) ∧ proper name

namespace IsNumeric

variable {fields : List String} {proper : String → Prop}

theorem shaped (numeric : IsNumeric fields proper state) : IsRecord state := by
  obtain ⟨entries, registers, same, named, -, -⟩ := numeric
  exact ⟨entries, registers, same, named⟩

theorem names (numeric : IsNumeric fields proper state) {key : Key} (member : key ∈ registersOf state) :
    ∃ name, key = .text name ∧ proper name := by
  obtain ⟨entries, registers, rfl, named, -, all⟩ := numeric
  rw [registersOf_dict named] at member
  obtain ⟨entry, inside, rfl⟩ := List.mem_map.mp member
  obtain ⟨name, number, rfl, good⟩ := all entry inside
  exact ⟨name, rfl, good⟩

theorem field (numeric : IsNumeric fields proper state) (used : name ∈ fields) : IsWhole (state.field? name) := by
  obtain ⟨entries, registers, rfl, -, whole, -⟩ := numeric
  exact whole name used

/-- A register that a snapshot has is among its names, and a whole number. -/
theorem register (numeric : IsNumeric fields proper state) (found : registerOf name state = some value) :
    Key.text name ∈ registersOf state ∧ ∃ number, value = .int number := by
  obtain ⟨entries, registers, rfl, named, -, all⟩ := numeric
  rw [registerOf_dict named] at found
  obtain ⟨present, member, same⟩ := Entries.find?_entry found
  obtain ⟨other, number, whole, -⟩ := all _ member
  obtain ⟨rfl, rfl⟩ := Prod.mk.inj whole
  rw [registersOf_dict named, ← Key.eq_text same.symm]
  exact ⟨List.mem_map_of_mem member, number, rfl⟩

theorem numbered (numeric : IsNumeric fields proper state) (name : String) : IsNumbered name state :=
  ⟨numeric.shaped, fun _ found => (numeric.register found).2⟩

/-- A filter leaves a snapshot in its form. -/
theorem filtered {filter kept : Value} (other : "registers" ∉ fields) (numeric : IsNumeric fields proper state)
    (picked : filtered filter state = .ok kept) : IsNumeric fields proper kept := by
  obtain ⟨entries, registers, rfl, named, whole, all⟩ := numeric
  rcases filtered_cases picked with rfl | ⟨held, fewer, found, part, rfl⟩
  · exact ⟨entries, registers, rfl, named, whole, all⟩
  rw [found] at named
  cases named
  refine ⟨_, fewer, rfl, by rw [Entries.findPutSame]; rfl, fun name member => ?_,
    fun entry member => all entry (part.subset member)⟩
  have apart : name ≠ "registers" := fun same => other (same ▸ member)
  rw [Entries.findPutOther entries _ (by simpa [Key.face] using apart)]
  exact whole name member

end IsNumeric

/-- The kind of snapshots with whole numbers for some fields and for registers with proper names. -/
def Kind.numeric (fields : List String) (proper : String → Prop) (other : "registers" ∉ fields) : Kind where
  has := IsNumeric fields proper
  names := proper
  mapping _ numeric := numeric.imp fun _ ⟨_, same, _⟩ => same
  picked _ _ _ numeric picked := numeric.filtered other picked
  named state keys numeric named key member := by
    rw [namesIn_record numeric.shaped] at named
    cases named
    exact numeric.names member

/-! ### What recorders know -/

/-- The recorder holds mappings of a kind and knows all their registers by name, each once. -/
structure Knows (kind : Kind) (recorder : Recorder) : Prop where
  held : ∀ state ∈ recorder.history.toList, kind.has state
  shaped : ∀ state ∈ recorder.history.toList, IsRecord state
  known : ∀ state ∈ recorder.history.toList, ∀ key ∈ registersOf state, key ∈ recorder.registers
  names : ∀ key ∈ recorder.registers, ∃ name, key = .text name ∧ kind.names name
  single : (recorder.registers.map Key.face).Nodup

variable {kind : Kind}

/-- A snapshot leaves the history and the names as they are, or its names are added to those that are known and it
comes last in the history, as the filter leaves it. -/
theorem record_ends (recorder : Recorder) (state : Value) :
    let after := (recorder.record state).1
    (after.history = recorder.history ∧ after.registers = recorder.registers) ∨
      ∃ kept names, filtered recorder.filter state = .ok kept ∧ namesIn kept = .ok names ∧
        after.history = bounded recorder.limit (recorder.history.push kept) ∧
        after.registers = addNames recorder.registers names := by
  intro after
  unfold after record
  cases picked : filtered recorder.filter state with
  | error fault => exact .inl ⟨rfl, rfl⟩
  | ok kept =>
  simp only [noted, through]
  cases recorder.total.successor with
  | error fault => exact .inl ⟨rfl, rfl⟩
  | ok total =>
  simp only [Except.map, withCycle_eq, withRegisters_eq]
  cases cycleIn kept with
  | error fault => exact .inl ⟨rfl, rfl⟩
  | ok cycle =>
  dsimp only
  rw [seeing_eq]
  cases named : namesIn kept with
  | error fault => exact .inl ⟨rfl, rfl⟩
  | ok names =>
  refine .inr ⟨kept, names, rfl, named, ?_⟩
  dsimp only
  -- The sample comes last, and it does not change the history.
  split
  case h_1 next sampled =>
    obtain ⟨samples, rfl⟩ := withSample_done sampled
    exact ⟨rfl, rfl⟩
  case h_2 => exact ⟨rfl, rfl⟩

/-- A name that is known after others is among them or was known. -/
theorem addNames_known {known names : List Key} {name : String}
    (member : Key.text name ∈ known ∨ Key.text name ∈ names) : Key.text name ∈ addNames known names := by
  have face := (face_mem_addNames known names (Key.text name).face).mpr
    (member.imp (List.mem_map_of_mem ·) (List.mem_map_of_mem ·))
  obtain ⟨other, inside, same⟩ := List.mem_map.mp face
  exact Key.eq_text same ▸ inside

/-- The names of the registers of a mapping of a kind are texts of that kind. -/
theorem Kind.registers (kind : Kind) (shaped : IsRecord state) (has : kind.has state) {key : Key}
    (member : key ∈ registersOf state) : ∃ name, key = .text name ∧ kind.names name :=
  kind.named state _ has (namesIn_record shaped) key member

theorem Knows.record (knows : recorder.Knows kind) (has : kind.has state) : (recorder.record state).1.Knows kind := by
  rcases recorder.record_ends state with ⟨history, registers⟩ | ⟨kept, names, picked, named, history, registers⟩
  · obtain ⟨held, shaped, known, proper, single⟩ := knows
    rw [← history] at held shaped known
    rw [← registers] at known proper single
    exact ⟨held, shaped, known, proper, single⟩
  have fits : kind.has kept := kind.picked _ _ _ has picked
  have mapping : IsRecord kept := by
    obtain ⟨entries, rfl⟩ := kind.mapping kept fits
    rcases namesIn_dict entries with ⟨_, shaped, -⟩ | nameless
    · exact shaped
    · cases named.symm.trans nameless
  obtain rfl : names = registersOf kept := Except.ok.inj (named.symm.trans (namesIn_record mapping))
  have among {item : Value} (member : item ∈ (recorder.record state).1.history.toList) :
      item ∈ recorder.history.toList ∨ item = kept := by
    rw [history, ← Array.mem_def] at member
    exact (Array.mem_push.mp (mem_bounded member)).imp_left Array.mem_def.mp
  refine ⟨fun item member => ?_, fun item member => ?_, fun item member key inside => ?_, fun key member => ?_, ?_⟩
  · rcases among member with before | rfl
    · exact knows.held item before
    · exact fits
  · rcases among member with before | rfl
    · exact knows.shaped item before
    · exact mapping
  · rw [registers]
    rcases among member with before | rfl
    · have there := knows.known item before key inside
      obtain ⟨name, rfl, -⟩ := knows.names key there
      exact addNames_known (.inl there)
    · obtain ⟨name, rfl, -⟩ := kind.registers mapping fits inside
      exact addNames_known (.inr inside)
  · rw [registers] at member
    rcases mem_addNames member with there | new
    · exact knows.names key there
    · exact kind.registers mapping fits new
  · rw [registers]
    exact addNames_nodup _ knows.single

/-- A recorder that has the names of its snapshots knows them. -/
theorem knows_of_names (held : ∀ state ∈ recorder.history.toList, kind.has state)
    (shaped : ∀ state ∈ recorder.history.toList, IsRecord state)
    (registers : recorder.registers = namesOf recorder.history.toList) : recorder.Knows kind where
  held
  shaped
  known state member key inside := by
    obtain ⟨name, rfl, -⟩ := kind.registers (shaped state member) (held state member) inside
    have face := ((namesOf_complete recorder.history.toList).2 (Key.text name).face).mpr
      ⟨state, member, List.mem_map_of_mem inside⟩
    obtain ⟨other, known, same⟩ := List.mem_map.mp face
    rw [registers]
    exact Key.eq_text same ▸ known
  names key member := by
    have face : key.face ∈ (namesOf recorder.history.toList).map Key.face :=
      registers ▸ List.mem_map_of_mem member
    obtain ⟨state, within, inside⟩ := ((namesOf_complete recorder.history.toList).2 key.face).mp face
    obtain ⟨other, known, same⟩ := List.mem_map.mp inside
    obtain ⟨name, rfl, proper⟩ := kind.registers (shaped state within) (held state within) known
    exact ⟨name, Key.eq_text same.symm, proper⟩
  single := registers ▸ (namesOf_complete recorder.history.toList).1

/-! ### Gathering -/

/-- A saved value that is taken over as a whole leaves mappings of registers and their names. -/
theorem takeOver_names {saved : Value} {after : Recorder} (taken : recorder.takeOver saved = (after, .ok ())) :
    (∀ state ∈ after.history.toList, IsRecord state) ∧ after.registers = namesOf after.history.toList := by
  have course := recorder.takeOver_cases saved
  rw [taken] at course
  cases course with
  | whole entries counts items first last names mapping listed counted shaped =>
      subst mapping
      rw [takeOver_listed recorder listed, through, withTotal_counted _ counted] at taken
      let totalled : Recorder := { recorder.replaced entries items with
        total := (Entries.find? counts (.text "total_records")).getD
          (.int (recorder.replaced entries items).history.size) }
      have recalled : totalled.through [withCycles, withNames] = (totalled.recalled, .ok ()) :=
        through_recalled shaped
      exact ⟨shaped, congrArg (fun outcome => outcome.1.registers) (taken.symm.trans recalled)⟩

variable {files : Files} {path : String}

theorem load_taken (done : (recorder.load files (.text path)).result = .ok true) :
    ∃ saved, recorder.takeOver saved = ((recorder.load files (.text path)).recorder, .ok ()) := by
  cases read : readValue files path with
  | none =>
      rw [(recorder.load_unknown read).2] at done
      cases done
  | some outcome =>
  cases outcome with
  | error fault =>
      rw [(recorder.load_unread read).2] at done
      split at done <;> cases done
  | ok saved =>
      obtain ⟨kept, ends⟩ := recorder.load_read read
      rw [kept]
      rw [ends] at done
      refine ⟨saved, ?_⟩
      generalize recorder.takeOver saved = outcome at done ⊢
      rcases outcome with ⟨after, fault | _⟩
      · cases done
      · rfl

/-- The recorders that come of taking snapshots of a kind, refused ones among them, of clearing, and of loading
histories of such snapshots, in any order. -/
inductive Gathered (kind : Kind) : Recorder → Prop where
  | make {limit ratio filter : Value} {fresh : Recorder} (made : make limit ratio filter = .ok fresh) :
      Gathered kind fresh
  | record {recorder : Recorder} {state : Value} (gathered : Gathered kind recorder) (has : kind.has state) :
      Gathered kind (recorder.record state).1
  | clear {recorder : Recorder} (gathered : Gathered kind recorder) : Gathered kind recorder.clear
  | load {recorder : Recorder} {files : Files} {path : String} (gathered : Gathered kind recorder)
      (loads : (recorder.load files (.text path)).result = .ok true)
      (held : ∀ state ∈ (recorder.load files (.text path)).recorder.history.toList, kind.has state) :
      Gathered kind (recorder.load files (.text path)).recorder

theorem Gathered.knows (gathered : Gathered kind recorder) : recorder.Knows kind := by
  induction gathered with
  | make made =>
      obtain ⟨most, step, -, rfl⟩ := make_cases made
      exact ⟨nofun, nofun, nofun, nofun, List.nodup_nil⟩
  | record gathered has ih => exact ih.record has
  | clear gathered ih => exact ⟨nofun, nofun, nofun, nofun, List.nodup_nil⟩
  | load gathered loads held ih =>
      obtain ⟨saved, taken⟩ := load_taken loads
      obtain ⟨shaped, names⟩ := takeOver_names taken
      exact knows_of_names held shaped names

theorem sortedTexts_ordered (names : List String) : (sortedTexts names).Pairwise (· ≤ ·) := by
  let before : String → String → Bool := fun first second => first ≤ second
  have total (first second : String) : (before first second || before second first) = true := by
    simpa [before] using le_total first second
  have chains (first second third : String) (here : before first second = true)
      (there : before second third = true) : before first third = true :=
    decide_eq_true (le_trans (of_decide_eq_true here) (of_decide_eq_true there))
  have sorts : (sortedTexts names).Pairwise fun first second => before first second = true :=
    List.pairwise_mergeSort chains total names
  exact sorts.imp of_decide_eq_true

/-- The names that a recorder knows are listed in order, each once. -/
theorem Knows.sorted (knows : recorder.Knows kind) : ∃ names, recorder.sortedRegisters = .ok names ∧
    (∀ name, name ∈ names ↔ Key.text name ∈ recorder.registers) ∧ (∀ name ∈ names, kind.names name) ∧
    names.Pairwise (· < ·) := by
  obtain ⟨names, texts, proper⟩ := texts_of_keys knows.names
  refine ⟨sortedTexts names, sortedRegisters_texts texts, fun name => ?_, fun name member => ?_, ?_⟩
  · rw [texts, List.mem_map_of_injective fun _ _ same => Key.text.inj same]
    exact List.mem_mergeSort
  · exact proper name (List.mem_mergeSort.mp member)
  · have single : (sortedTexts names).Nodup := by
      have faces := knows.single
      rw [texts] at faces
      exact (List.mergeSort_perm names _).nodup_iff.mpr (faces.of_map _).of_map
    exact ((sortedTexts_ordered names).and single).imp fun both => lt_of_le_of_ne both.1 both.2

end ChipEight.Recorder
