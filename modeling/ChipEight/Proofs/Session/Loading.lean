/-
This file shows that loading a program is all or nothing. A program that is taken is wholly in the
memory, and one that is refused, or whose file cannot be read, leaves everything as it was.
-/

import ChipEight.Proofs.Incidents.Boundaries
import ChipEight.Proofs.Machine.Storage
import ChipEight.Session

namespace ChipEight

/-- A program is taken if its length allows and is then in the memory; else nothing changes. -/
structure AllOrNothing {A : Type} (memoryOf : A → Memory) (program : List UInt8) (before : A)
    (taken : Bool) (after : A) : Prop where
  taken_iff : taken = true ↔ 1 ≤ program.length ∧ program.length ≤ 3584
  loaded : taken = true → (memoryOf after).HoldsProgram program
  unchanged : taken = false → after = before

namespace Memory

theorem load_allOrNothing (memory : Memory) (program : Option (List UInt8)) :
    AllOrNothing id (program.getD []) memory (memory.load program).value
      (memory.load program).memory where
  taken_iff := memory.load_value_iff program
  loaded taken := by
    have fits := ((memory.load_value_iff program).mp taken).2
    rw [memory.load_accepted taken]
    exact memory.withProgram_holdsProgram fits
  unchanged := memory.load_rejected

/-- The bytes before the program area are as they were, the glyphs among them. -/
theorem load_byteAt_before (memory : Memory) (program : Option (List UInt8)) {place : Int}
    (before : place < 0x200) :
    (memory.load program).memory.byteAt place = memory.byteAt place := by
  cases taken : (memory.load program).value with
  | false => rw [memory.load_rejected taken]
  | true =>
      rw [memory.load_accepted taken]
      exact memory.withProgram_byteAt_before _ before

theorem clear_byteAt (memory : Memory) (place : Int) : memory.clear.byteAt place = 0 := by
  unfold byteAt clear
  split
  · exact Vector.getElem_replicate _
  · rfl

/-- The glyphs are not back where a memory was cleared that takes a program: for those it has to be
reset. -/
theorem cleared_load_lacks_glyphs :
    let loaded := initial.clear.load (some [0xa1, 0xb2, 0xc3])
    loaded.value = true ∧ ¬ loaded.memory.HoldsGlyphs := by
  refine ⟨rfl, ?_⟩
  intro held
  have first := held 0 (by decide)
  rw [load_byteAt_before _ _ (by decide), clear_byteAt] at first
  exact absurd first (by decide)

end Memory

namespace Machine

/-- The machine and its memory look at a program alike, also after the reset in between. -/
theorem load_result_eq (machine : Machine) (memory : Memory) (program : Option (List UInt8)) :
    (machine.load program).result = (memory.load program).value := by
  rw [Bool.eq_iff_iff, machine.load_result, Request.renews_load_iff, memory.load_value_iff]

theorem load_allOrNothing (machine : Machine) (program : Option (List UInt8)) :
    AllOrNothing memory (program.getD []) machine (machine.load program).result
      (machine.load program).machine where
  taken_iff := by
    rw [machine.load_result]
    exact Request.renews_load_iff program
  loaded taken := by
    rw [machine.load_result] at taken
    rw [machine.load_taken taken]
    exact machine.reset.memory.withProgram_holdsProgram ((Request.renews_load_iff program).mp taken).2
  unchanged refused := by
    rw [machine.load_result] at refused
    exact machine.load_refused refused

/-- The reset before a program is taken puts the glyphs back, whatever became of them. -/
theorem load_holdsGlyphs (machine : Machine) {program : Option (List UInt8)}
    (taken : (machine.load program).result = true) :
    (machine.load program).machine.memory.HoldsGlyphs := by
  rw [machine.load_result] at taken
  rw [machine.load_taken taken]
  exact machine.memory.clear.loadGlyphs_held.withProgram _

end Machine

namespace Session

theorem load_allOrNothing (session : Session) (program : Option (List UInt8)) :
    AllOrNothing (fun after => after.machine.memory) (program.getD []) session
      (session.machine.load program).result (session.load program).session where
  taken_iff := (session.machine.load_allOrNothing program).taken_iff
  loaded := (session.machine.load_allOrNothing program).loaded
  unchanged refused := by
    unfold load
    dsimp only
    rw [refused, (session.machine.load_allOrNothing program).unchanged refused]
    rfl

end Session

namespace Files

/-- The reasons for which files are refused do not end the host. -/
theorem guarded_isExit {A : Type} {path : String} {action : Except Refusal A} {fault : Fault}
    (fails : guarded path action = .error fault) : fault.isExit = false := by
  unfold guarded at fails
  split at fails
  · cases fails
    rfl
  · cases action with
    | error refusal => cases fails; rfl
    | ok value => cases fails

theorem readBytes_isExit (files : Files) (name : String) (fault : Fault)
    (fails : files.readBytes name = .error fault) : fault.isExit = false := by
  unfold readBytes at fails
  cases found : files.read name with
  | error problem =>
      rw [found] at fails
      cases fails
      exact guarded_isExit found
  | ok content =>
      rw [found] at fails
      cases content <;> cases fails

/-- What is read is what a file that is there holds. -/
theorem read_present {files : Files} {name : String} {content : Content}
    (reads : files.read name = .ok content) :
    ∃ place, files.node? place = some (.file content) := by
  unfold read guarded at reads
  split at reads
  · cases reads
  · cases located : files.locate name with
    | error refusal =>
        rw [located] at reads
        cases reads
    | ok place =>
        refine ⟨place, ?_⟩
        simp only [located, bind, Except.bind] at reads
        split at reads
        case h_1 | h_2 => cases reads
        case h_3 held found =>
          split at reads
          · cases reads
          · cases reads
            exact found

/-- Nothing can be read where there are no files. -/
theorem readBytes_missing (name : String) (bytes : List UInt8) :
    (Files.mk []).readBytes name ≠ .ok bytes := by
  intro reads
  cases content : (Files.mk []).read name with
  | error fault =>
      unfold readBytes at reads
      rw [content] at reads
      cases reads
  | ok held =>
      obtain ⟨place, present⟩ := read_present content
      unfold node? at present
      split at present
      · cases present
      · cases present

end Files

namespace Session

/-- What comes of loading a file: a fault is put down once and changes nothing, and what was read is
taken as a whole or not at all. -/
inductive FileLoad (session : Session) (incidents : Incidents)
    (read : String → Except Fault (List UInt8)) (path : Value) (after : GuardedLoad) : Prop where
  | failed (fault : Fault) (fails : (session.loadFrom read path).result = .error fault)
      (refused : after.result = false) (unchanged : after.session = session)
      (incident : Incident) (level : incident.level = .error) (category : incident.category = .input)
      (noted : after.incidents = { incidents with
        kept := (incidents.kept ++ [incident]).drop (incidents.kept.length + 1 - 100) })
  | opened (name : String) (bytes : List UInt8) (named : path = .text name)
      (found : read name = .ok bytes)
      (wholly : AllOrNothing (fun after => after.machine.memory) bytes session after.result
        after.session)
      (glyphs : after.result = true → after.session.machine.memory.HoldsGlyphs)
      (silent : after.incidents = incidents)

variable {read : String → Except Fault (List UInt8)}

/-- A path that is no text, or whose file cannot be read, is a fault; else the bytes are loaded. -/
theorem loadFrom_cases (session : Session)
    (stays : ∀ name fault, read name = .error fault → fault.isExit = false) (path : Value) :
    (∃ fault, fault.isExit = false ∧ (session.loadFrom read path).result = .error fault ∧
      (session.loadFrom read path).session = session) ∨
    ∃ name bytes, path = .text name ∧ read name = .ok bytes ∧
      (session.loadFrom read path).result = .ok (session.machine.load (some bytes)).result ∧
      (session.loadFrom read path).session = (session.load (some bytes)).session := by
  unfold loadFrom
  split
  case h_1 name =>
    dsimp only
    cases found : read name with
    | error fault => exact .inl ⟨fault, stays name fault found, rfl, rfl⟩
    | ok bytes => exact .inr ⟨name, bytes, rfl, found, rfl, rfl⟩
  case h_2 other => exact .inl ⟨_, rfl, rfl, rfl⟩

/-- A fault that does not end the host passes the boundary as a refusal, and is put down once. -/
theorem pass_fault {incidents : Incidents} (keeps : incidents.keeps = true)
    (bound : incidents.bound = .int (100 : Nat)) {fault : Fault} (stays : fault.isExit = false) :
    let passage := loadBoundary.pass loadSite incidents (.error fault)
    passage.result = .ok false ∧ ∃ incident : Incident, incident.level = .error ∧
      incident.category = .input ∧ passage.incidents = { incidents with
        kept := (incidents.kept ++ [incident]).drop (incidents.kept.length + 1 - 100) } := by
  intro passage
  let incident := Incident.ofReport (loadBoundary.report loadSite fault)
  have added := Incidents.add_eq keeps bound (by decide) incident
  have passes := loadBoundary.pass_reported loadSite incidents stays
  refine ⟨congrArg Boundary.Passage.result passes, incident, rfl, rfl, ?_⟩
  exact (congrArg Boundary.Passage.incidents passes).trans (Incidents.handle_incidents added)

/-- A file that is loaded is read or not, and neither is a fault for the host. -/
theorem loadGuardedFrom_cases (session : Session) {incidents : Incidents}
    (keeps : incidents.keeps = true) (bound : incidents.bound = .int (100 : Nat))
    (stays : ∀ name fault, read name = .error fault → fault.isExit = false) (path : Value) :
    let after := session.loadGuardedFrom incidents read path
    (loadBoundary.pass loadSite incidents (session.loadFrom read path).result).result =
        .ok after.result ∧
      session.FileLoad incidents read path after := by
  intro after
  have result_eq {taken : Bool} (passes : (loadBoundary.pass loadSite incidents
      (session.loadFrom read path).result).result = .ok taken) : after.result = taken := by
    change (loadBoundary.pass loadSite incidents _).result.toOption.getD false = taken
    rw [passes]
    rfl
  rcases session.loadFrom_cases stays path with
    ⟨fault, lasts, fails, unchanged⟩ | ⟨name, bytes, named, found, ends, loads⟩
  · obtain ⟨refused, incident, level, category, noted⟩ :=
      pass_fault keeps bound lasts
    rw [← fails] at refused noted
    rw [result_eq refused]
    exact ⟨refused, .failed fault fails (result_eq refused) unchanged incident level category noted⟩
  · have passes : loadBoundary.pass loadSite incidents (session.loadFrom read path).result =
        ⟨incidents, .ok (session.machine.load (some bytes)).result, []⟩ := by
      rw [ends]
      rfl
    have result := result_eq (congrArg Boundary.Passage.result passes)
    have whole := session.load_allOrNothing (some bytes)
    rw [← loads, ← result] at whole
    refine ⟨?_, .opened name bytes named found whole ?_ (congrArg Boundary.Passage.incidents passes)⟩
    · rw [passes, result]
    · intro taken
      rw [result] at taken
      change (session.loadFrom read path).session.machine.memory.HoldsGlyphs
      rw [loads]
      exact session.machine.load_holdsGlyphs taken

/-- Loading a program is all or nothing, for the memory, the machine and the session in any state
whatever. -/
theorem loading_all_or_nothing :
    (∀ (memory : Memory) (program : Option (List UInt8)),
      AllOrNothing id (program.getD []) memory (memory.load program).value
        (memory.load program).memory ∧
      ∀ place : Int, place < 0x200 →
        (memory.load program).memory.byteAt place = memory.byteAt place) ∧
    (∀ display random deeds (program : Option (List UInt8)),
      let memory := ((Machine.new display random).carryOutAll deeds).memory
      (memory.load program).memory.HoldsGlyphs) ∧
    (∀ (machine : Machine) (program : Option (List UInt8)),
      let loaded := machine.load program
      loaded.result = (machine.memory.load program).value ∧
      loaded.result = (machine.reset.memory.load program).value ∧
      AllOrNothing Machine.memory (program.getD []) machine loaded.result loaded.machine ∧
      (loaded.result = true → loaded.machine.memory.HoldsGlyphs)) ∧
    (∀ (session : Session) (program : Option (List UInt8)), ∃ taken,
      let loaded := session.load program
      loaded.result = .ok taken ∧
      AllOrNothing (fun after => after.machine.memory) (program.getD []) session taken
        loaded.session ∧
      (taken = true → loaded.session.machine.memory.HoldsGlyphs)) ∧
    ∀ (session : Session) kept watchers (read : String → Except Fault (List UInt8)) path,
      (∀ name fault, read name = .error fault → fault.isExit = false) →
      let incidents := { Incidents.initial with kept := kept, watchers := watchers }
      let after := session.loadGuardedFrom incidents read path
      (loadBoundary.pass loadSite incidents (session.loadFrom read path).result).result =
          .ok after.result ∧
        session.FileLoad incidents read path after := by
  refine ⟨?_, ?_, ?_, ?_, ?_⟩
  · intro memory program
    exact ⟨memory.load_allOrNothing program, fun _ before => memory.load_byteAt_before program before⟩
  · intro display random deeds program memory
    have guarded : memory.Guarded :=
      Machine.carryOutAll_guarded (Machine.new_guarded display random) deeds
    exact (guarded.load program).held
  · intro machine program loaded
    exact ⟨machine.load_result_eq _ program, machine.load_result_eq _ program,
      machine.load_allOrNothing program, machine.load_holdsGlyphs⟩
  · intro session program
    exact ⟨_, rfl, session.load_allOrNothing program, session.machine.load_holdsGlyphs⟩
  · intro session kept watchers read path stays incidents
    exact session.loadGuardedFrom_cases rfl rfl stays path

/-- A session that runs stays as it was where there is no file to load. -/
theorem loading_all_or_nothing_missing :
    let session : Session := {
      settings := []
      machine := Machine.new (.blank 8 4) (.ofSeed 12345)
      cyclesPerFrame := .int 10
      keymap := .null
      started := true
      frames := 3
      recorder := none }
    let after := session.loadGuardedFrom .initial (Files.mk []).readBytes (.text "a.ch8")
    after.result = false ∧ after.session = session ∧ after.incidents.kept.length = 1 := by
  intro session after
  obtain ⟨-, -, -, -, loads⟩ := loading_all_or_nothing
  obtain ⟨-, loaded⟩ :=
    loads session [] [] (Files.mk []).readBytes (.text "a.ch8") (Files.mk []).readBytes_isExit
  cases loaded with
  | failed fault fails refused unchanged incident level category noted =>
      refine ⟨refused, unchanged, ?_⟩
      exact congrArg (fun incidents : Incidents => incidents.kept.length) noted
  | opened name bytes named found =>
      exact absurd found (Files.readBytes_missing name bytes)

end Session

end ChipEight
