/-
This file follows the levels of a journal. There is never more than one console and one file. The file has
the level last asked for; the console has the one last asked for while it was attached, which is another one
if levels were asked for in between.
-/

import ChipEight.Journal
import ChipEight.Proofs.Files.Contents

namespace ChipEight

/-- A sink with the level for files, if one is given and it is a file. -/
def Sink.relevelled (level : Option Int) : Sink → Sink
  | console => console
  | file path old => file path (level.getD old)

namespace Journal

variable {journal : Journal}

/-- Levels reach all sinks that are attached, and no others. -/
theorem setLevels_eq (journal : Journal) (console : Int) (file : Option Int) :
    journal.setLevels (.ok console) (file.map .ok) = ({ journal with
      consoleLevel := if .console ∈ journal.sinks then console else journal.consoleLevel
      fileLevel := (file.map .ok).getD journal.fileLevel
      sinks := journal.sinks.map (Sink.relevelled file) }, .ok ()) := by
  unfold setLevels
  extract_lets asked take
  -- The sinks before a place have their levels already, and those from there on are as they were.
  suffices onward : ∀ (rest seen : List Sink) (current : Journal), current.sinks = seen ++ rest →
      ((rest.zipIdx seen.length).map Prod.swap).foldl take (current, .ok ()) =
        ({ current with
          consoleLevel := if .console ∈ rest then console else current.consoleLevel
          sinks := seen ++ rest.map (Sink.relevelled file) }, .ok ()) from
    onward journal.sinks [] asked rfl
  intro rest
  induction rest with
  | nil =>
      intro seen current all
      simp [← all]
  | cons sink rest ih =>
      intro seen current all
      rw [List.zipIdx_cons, List.map_cons, List.foldl_cons]
      have place (first : Sink) : seen.length + 1 = (seen ++ [first]).length := by simp
      cases sink with
      | console =>
          change List.foldl take ({ current with consoleLevel := console }, .ok ()) _ = _
          rw [place .console, ih (seen ++ [Sink.console]) { current with consoleLevel := console } (by simp [all])]
          simp [Sink.relevelled]
      | file path old =>
          cases file with
          | none =>
              change List.foldl take (current, .ok ()) _ = _
              rw [place (.file path old), ih (seen ++ [Sink.file path old]) current (by simp [all])]
              simp [Sink.relevelled]
          | some level =>
              change List.foldl take
                ({ current with sinks := current.sinks.set seen.length (.file path level) }, .ok ()) _ = _
              rw [place (.file path level), ih (seen ++ [Sink.file path level])
                { current with sinks := current.sinks.set seen.length (.file path level) } (by simp [all])]
              simp [Sink.relevelled]

/-- The old file is given up, and a new one that can be opened is attached behind with the level for files. -/
theorem setFile_cases (journal : Journal) (files : Files) (path : Value) :
    let opened := (journal.setFile files path).journal
    let others := journal.sinks.filter fun sink => !sink.isFile
    opened.consoleLevel = journal.consoleLevel ∧ opened.fileLevel = journal.fileLevel ∧
      (opened.sinks = others ∨
        ∃ name level, journal.fileLevel = .ok level ∧ opened.sinks = others ++ [.file name level]) := by
  dsimp only
  unfold setFile
  split
  case isTrue => exact ⟨rfl, rfl, .inl rfl⟩
  split
  case h_2 => exact ⟨rfl, rfl, .inl rfl⟩
  dsimp only
  split
  case h_1 => exact ⟨rfl, rfl, .inl rfl⟩
  split
  case h_1 => exact ⟨rfl, rfl, .inl rfl⟩
  split
  case h_1 => exact ⟨rfl, rfl, .inl rfl⟩
  case h_2 level named => exact ⟨rfl, rfl, .inr ⟨_, level, named, rfl⟩⟩

/-! ### One demand after another -/

/-- What is asked of a journal: levels, the console attached or detached, or another log file, whatever files
there are by then. -/
inductive Demand where
  | levels (console : Int) (file : Option Int)
  | attach (attached : Bool)
  | openLog (files : Files) (path : Value)

def Demand.on (journal : Journal) : Demand → Journal
  | levels console file => (journal.setLevels (.ok console) (file.map .ok)).1
  | attach attached => journal.setConsole attached
  | openLog files path => (journal.setFile files path).journal

/-- The journal after demands one after another. -/
def after (journal : Journal) (demands : List Demand) : Journal :=
  demands.foldl Demand.on journal

/-- What was asked for up to now: the levels that were asked for last, whether the console is to be attached,
and the level that was last asked for while it was. -/
structure Asked where
  console : Int
  file : Int
  attached : Bool
  heard : Int

def Demand.noted (asked : Asked) : Demand → Asked
  | levels console file =>
      { asked with
        console
        file := file.getD asked.file
        heard := if asked.attached then console else asked.heard }
  | attach attached => { asked with attached }
  | openLog _ _ => asked

/-- What is asked for by demands, where a journal was made with levels. -/
def askedFor (console file : Int) (demands : List Demand) : Asked :=
  demands.foldl Demand.noted ⟨console, file, true, console⟩

/-- The sinks are those that were asked for, and have the levels that reached them. -/
structure InStep (journal : Journal) (asked : Asked) : Prop where
  consoles : journal.sinks.count .console = asked.attached.toNat
  files : journal.sinks.countP Sink.isFile ≤ 1
  console : journal.consoleLevel = asked.heard
  file : journal.fileLevel = .ok asked.file
  carried : ∀ path level, .file path level ∈ journal.sinks → level = asked.file

variable {asked : Asked}

theorem InStep.attached_iff (step : InStep journal asked) : .console ∈ journal.sinks ↔ asked.attached = true := by
  rw [← List.count_pos_iff, step.consoles]
  cases asked.attached <;> decide

theorem InStep.levels (step : InStep journal asked) (console : Int) (file : Option Int) :
    InStep ((Demand.levels console file).on journal) ((Demand.levels console file).noted asked) := by
  simp only [Demand.on, Demand.noted, setLevels_eq]
  have consoles : (fun sink => sink == .console) ∘ Sink.relevelled file = fun sink => sink == .console := by
    funext sink
    cases sink <;> rfl
  have isFile : Sink.isFile ∘ Sink.relevelled file = Sink.isFile := by
    funext sink
    cases sink <;> rfl
  refine ⟨?_, ?_, ?_, ?_, fun path level member => ?_⟩
  · rw [← step.consoles, List.count, List.countP_map, consoles]
  · rw [List.countP_map, isFile]
    exact step.files
  · simp only [step.attached_iff, step.console]
  · rw [step.file]
    cases file <;> rfl
  · obtain ⟨sink, there, same⟩ := List.mem_map.mp member
    cases sink with
    | console => simp [Sink.relevelled] at same
    | file other old =>
        obtain ⟨-, rfl⟩ : other = path ∧ file.getD old = level := by simpa [Sink.relevelled] using same
        rw [step.carried other old there]

theorem InStep.attach (step : InStep journal asked) (attached : Bool) :
    InStep ((Demand.attach attached).on journal) ((Demand.attach attached).noted asked) := by
  have known := step.attached_iff
  obtain ⟨consoles, files, console, file, carried⟩ := step
  simp only [Demand.on, Demand.noted, setConsole]
  cases attached with
  | false =>
      refine ⟨?_, ?_, console, file, fun path level member => carried path level (List.mem_filter.mp member).1⟩
      · exact List.count_eq_zero.mpr fun member => by simpa using (List.mem_filter.mp member).2
      · exact Nat.le_trans List.filter_sublist.countP_le files
  | true =>
      by_cases there : .console ∈ journal.sinks
      · simp only [List.contains_eq_mem, there, decide_true, if_true]
        exact ⟨by rw [consoles, known.mp there], files, console, file, carried⟩
      · simp only [List.contains_eq_mem, there, decide_false, if_true, Bool.false_eq_true, if_false]
        refine ⟨?_, ?_, console, file, fun path level member => carried path level (by simpa using member)⟩
        · rw [List.count_append, List.count_eq_zero.mpr there]
          rfl
        · rw [List.countP_append]
          exact files

theorem InStep.openLog (step : InStep journal asked) (files : Files) (path : Value) :
    InStep ((Demand.openLog files path).on journal) ((Demand.openLog files path).noted asked) := by
  obtain ⟨console, file, sinks⟩ := journal.setFile_cases files path
  change InStep (journal.setFile files path).journal asked
  generalize (journal.setFile files path).journal = opened at console file sinks ⊢
  have kept (sink : Sink) : sink ∈ journal.sinks.filter (fun sink => !sink.isFile) →
      sink ∈ journal.sinks ∧ sink.isFile = false := by simp
  have consoles : (journal.sinks.filter fun sink => !sink.isFile).count .console = asked.attached.toNat := by
    rw [← step.consoles]
    exact List.count_filter rfl
  have none : (journal.sinks.filter fun sink => !sink.isFile).countP Sink.isFile = 0 :=
    List.countP_eq_zero.mpr fun sink member => by simp [(kept sink member).2]
  rcases sinks with old | ⟨name, level, named, new⟩
  · refine ⟨?_, ?_, console.trans step.console, file.trans step.file, fun path level member => ?_⟩
    · rw [old, consoles]
    · rw [old, none]
      exact Nat.zero_le 1
    · exact absurd (kept _ (old ▸ member)).2 (by simp [Sink.isFile])
  · refine ⟨?_, ?_, console.trans step.console, file.trans step.file, fun path other member => ?_⟩
    · rw [new, List.count_append, consoles]
      rfl
    · rw [new, List.countP_append, none]
      exact Nat.le_refl 1
    · rw [new, List.mem_append] at member
      rcases member with before | last
      · exact absurd (kept _ before).2 (by simp [Sink.isFile])
      · obtain ⟨-, rfl⟩ : path = name ∧ other = level := by simpa using last
        simpa using named.symm.trans step.file

theorem InStep.on (step : InStep journal asked) (demand : Demand) :
    InStep (demand.on journal) (demand.noted asked) := by
  cases demand with
  | levels console file => exact step.levels console file
  | attach attached => exact step.attach attached
  | openLog files path => exact step.openLog files path

theorem InStep.after (step : InStep journal asked) (demands : List Demand) :
    InStep (journal.after demands) (demands.foldl Demand.noted asked) := by
  induction demands generalizing journal asked with
  | nil => exact step
  | cons demand rest ih => exact ih (step.on demand)

/-- A journal that could be made is the usual one after its levels were given and its log file was opened. -/
theorem make_cases {console file : Int} {path : Value} {files : Files}
    (made : make (.int console) (.int file) path = .ok (journal, files)) :
    let opened := { initial with consoleLevel := console, fileLevel := .ok file }.setFile {} path
    opened.journal = journal ∧ opened.result = .ok () := by
  intro opened
  change (do opened.result; pure (opened.journal, (opened.journal.write opened.files opened.records).1)) = _ at made
  simp only [bind, Except.bind] at made
  split at made
  case h_1 => simp at made
  case h_2 fine =>
    obtain ⟨same, -⟩ := Prod.mk.inj (Except.ok.inj made)
    exact ⟨same, fine⟩

theorem made_inStep {console file : Int} {path : Value} {files : Files}
    (made : make (.int console) (.int file) path = .ok (journal, files)) :
    InStep journal ⟨console, file, true, console⟩ := by
  have start : InStep { initial with consoleLevel := console, fileLevel := .ok file }
      ⟨console, file, true, console⟩ := ⟨rfl, Nat.zero_le 1, rfl, rfl, by simp [initial]⟩
  obtain ⟨same, -⟩ := make_cases made
  rw [← same]
  exact start.openLog {} path

/-- If the console is attached whenever levels are asked for, it hears all of them. -/
theorem heard_of_attached (demands : List Demand) (same : asked.heard = asked.console)
    (attached : ∀ early console file late, demands = early ++ .levels console file :: late →
      (early.foldl Demand.noted asked).attached = true) :
    (demands.foldl Demand.noted asked).heard = (demands.foldl Demand.noted asked).console := by
  induction demands generalizing asked with
  | nil => exact same
  | cons demand rest ih =>
      -- Only levels that are asked for of a detached console could part what is asked from what is heard.
      apply ih
      · cases demand with
        | levels console file =>
            have here : asked.attached = true := attached [] console file rest rfl
            simp only [Demand.noted, here, if_true]
        | attach => exact same
        | openLog => exact same
      · intro early console file late split
        exact attached (demand :: early) console file late (by rw [split, List.cons_append])

/-- Whatever is asked of a journal, it has at most one console and one file, and the console is there if it
was last asked to be. The file has the level that was last asked for. The console has the one that was last
asked for while it was attached; this is the last one if it was attached whenever levels were asked for. -/
theorem sinks_levelled {console file : Int} {path : Value} {files : Files}
    (made : make (.int console) (.int file) path = .ok (journal, files)) (demands : List Demand) :
    let reached := journal.after demands
    let asked := askedFor console file demands
    reached.sinks.count .console ≤ 1 ∧ reached.sinks.countP Sink.isFile ≤ 1 ∧
    (.console ∈ reached.sinks ↔ asked.attached = true) ∧ reached.fileLevel = .ok asked.file ∧
    (∀ sink ∈ reached.sinks, reached.levelOf sink = if sink.isFile then asked.file else asked.heard) ∧
    ((∀ early level change late, demands = early ++ .levels level change :: late →
      .console ∈ (journal.after early).sinks) → asked.heard = asked.console) := by
  intro reached asked
  have step : InStep reached asked := (made_inStep made).after demands
  refine ⟨?_, step.files, step.attached_iff, step.file, fun sink member => ?_, fun attached => ?_⟩
  · rw [step.consoles]
    exact Bool.toNat_le _
  · cases sink with
    | console => exact step.console
    | file path level => exact step.carried path level member
  · exact heard_of_attached demands rfl fun early level change late split =>
      ((made_inStep made).after early).attached_iff.mp (attached early level change late split)

/-- Levels that are asked for reach the console and the log file, also if the console goes and comes back. -/
theorem sinks_levelled_log :
    let demands : List Demand := [.levels 40 (some 30), .attach false, .attach true]
    ∃ journal files, make (.int 20) (.int 10) (.text "a.log") = .ok (journal, files) ∧
      (journal.after demands).sinks = [.file "a.log" 30, .console] ∧
      (∀ sink ∈ (journal.after demands).sinks,
        (journal.after demands).levelOf sink = if sink.isFile then 30 else 40) ∧
      (askedFor 20 10 demands).heard = (askedFor 20 10 demands).console := by
  intro demands
  have plain : Files.IsName "a.log" := by constructor <;> decide
  have opened : Files.openLog {} "a.log" = .ok (Files.set {} ["a.log"] (.file (.bytes .empty))) :=
    Files.openLog_name plain rfl
  have parent : Files.makeParent {} "a.log" = ⟨{}, .ok ()⟩ := rfl
  have made : ∃ files, make (.int 20) (.int 10) (.text "a.log") =
      .ok (⟨20, .ok 10, some "a.log", [.console, .file "a.log" 10]⟩, files) := by
    have named : Value.isTrue (.text "a.log") = true := rfl
    simp only [make, Level.threshold, Value.whole?, setFile, named, parent, opened, initial]
    exact ⟨_, rfl⟩
  obtain ⟨files, made⟩ := made
  obtain ⟨-, -, -, -, levelled, heard⟩ := sinks_levelled made demands
  refine ⟨_, _, made, rfl, levelled, heard fun early level change late split => ?_⟩
  -- Levels are asked for once, and first.
  rcases early with _ | ⟨first, _ | ⟨second, _ | ⟨third, rest⟩⟩⟩
  · exact List.mem_cons_self
  all_goals simp [demands] at split

/-- A console that is detached misses a level, and does not have it when it is attached again. -/
theorem detached_console_unheeded :
    let demands : List Demand := [.attach false, .levels 40 none, .attach true]
    make (.int 20) (.int 10) .null = .ok (initial, {}) ∧ .console ∈ (initial.after demands).sinks ∧
      (initial.after demands).levelOf .console ≠ (askedFor 20 10 demands).console := by
  intro demands
  exact ⟨rfl, by decide, by decide⟩

end Journal

end ChipEight
