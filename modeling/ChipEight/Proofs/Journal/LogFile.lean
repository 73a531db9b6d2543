/-
This file compares the log file that a journal names with the one that is attached. They are the same as long as
the last call for a log file went well. A call that is refused gives the old one up nevertheless, and leaves the name
of a file that is not attached, so that no record reaches any file until another call.
-/

import ChipEight.Proofs.Files.Logs
import ChipEight.Proofs.Journal.Levels

namespace ChipEight

/-- The path that a sink writes to; the console has none. -/
def Sink.path? : Sink → Option String
  | console => none
  | file path _ => some path

/-- The files after a sink has taken a text, which the console shows elsewhere. -/
def Sink.addTo (sink : Sink) (text : String) (files : Files) : Files :=
  match sink with
  | console => files
  | file path _ => files.addText path text

namespace Journal

variable {journal : Journal} {files : Files} {path : Value}

/-- The paths of the files that are attached. -/
def paths (journal : Journal) : List String :=
  journal.sinks.filterMap Sink.path?

/-- The file that is named is attached and no other one; if none is named, none is attached. -/
def Truthful (journal : Journal) : Prop :=
  journal.paths = journal.logFile.toList

/-! ### What reaches the files -/

/-- Records reach the files through the sinks, one after another. -/
theorem write_files (journal : Journal) (files : Files) (records : List Record) :
    (journal.write files records).1 =
      journal.sinks.foldl (fun current sink => sink.addTo (journal.text sink records) current) files :=
  (List.foldl_hom Prod.fst fun state sink => by cases sink <;> rfl).symm

/-- A console adds nothing to the files. -/
theorem addTo_consoles {sinks : List Sink} (text : Sink → String) (files : Files)
    (consoles : sinks.filterMap Sink.path? = []) :
    sinks.foldl (fun current sink => sink.addTo (text sink) current) files = files := by
  induction sinks with
  | nil => rfl
  | cons sink rest ih =>
      cases sink with
      | console => exact ih consoles
      | file path level => cases consoles

theorem write_unattached (unattached : journal.paths = []) (files : Files) (records : List Record) :
    (journal.write files records).1 = files := by
  rw [write_files]
  exact addTo_consoles _ files unattached

theorem write_attached {name : String} (attached : journal.paths = [name]) (files : Files) (records : List Record) :
    ∃ level, .file name level ∈ journal.sinks ∧
      (journal.write files records).1 = files.addText name (journal.text (.file name level) records) := by
  obtain ⟨before, sink, behind, same, consoles, named, others⟩ := List.filterMap_eq_cons_iff.mp attached
  cases sink with
  | console => cases named
  | file path level =>
      cases named
      refine ⟨level, by simp [same], ?_⟩
      rw [write_files, same, List.foldl_append, List.foldl_cons,
        addTo_consoles _ files (List.filterMap_eq_nil_iff.mpr consoles)]
      exact addTo_consoles _ _ others

/-! ### One call -/

/-- What may be given for a log file: a path, or nothing. -/
def IsLogPath (path : Value) : Prop :=
  path = .null ∨ ∃ name, path = .text name

/-- The name of the log file that is asked for. An empty one asks for none. -/
def givenName : Value → Option String
  | .text name => if name.isEmpty then none else some name
  | _ => none

/-- How a call for a log file ends: there is to be none, the new one cannot be had, or it is attached. -/
inductive Ends (path : Value) (opened : Opened) : Prop
  | closed (given : givenName path = none) (result : opened.result = .ok ()) (named : opened.journal.logFile = none)
      (attached : opened.journal.paths = [])
  | refused (name : String) (fault : Fault) (given : givenName path = some name)
      (result : opened.result = .error fault) (named : opened.journal.logFile = some name)
      (attached : opened.journal.paths = [])
  | taken (name : String) (given : givenName path = some name) (result : opened.result = .ok ())
      (named : opened.journal.logFile = some name) (attached : opened.journal.paths = [name])
      (present : ∃ content, opened.files.node? (Path.settled name) = some (.file content))

/-- No path is left once the files are given up. -/
theorem paths_closed (sinks : List Sink) : (sinks.filter fun sink => !sink.isFile).filterMap Sink.path? = [] := by
  rw [List.filterMap_eq_nil_iff]
  intro sink member
  cases sink with
  | console => rfl
  | file path level => simp [Sink.isFile] at member

theorem setFile_ends (journal : Journal) (files : Files) (path : Value) (asked : IsLogPath path) :
    Ends path (journal.setFile files path) := by
  have closed := paths_closed journal.sinks
  rcases asked with rfl | ⟨name, rfl⟩
  · exact .closed rfl rfl rfl closed
  unfold setFile
  split
  case isTrue unnamed =>
    have empty : name.isEmpty = true := by simpa [Value.isTrue] using unnamed
    exact .closed (if_pos empty) rfl rfl closed
  case isFalse named =>
    have filled : givenName (.text name) = some name := if_neg (by simpa [Value.isTrue] using named)
    dsimp only
    split
    case h_1 fault refused => exact .refused name fault filled rfl rfl closed
    split
    case h_1 fault refused => exact .refused name fault filled rfl rfl closed
    case h_2 after opens =>
      split
      case h_1 fault unfit => exact .refused name fault filled rfl rfl closed
      case h_2 level fits =>
        refine .taken name filled rfl rfl ?_ (Files.openLog_present opens)
        rw [paths, List.filterMap_append, closed]
        rfl

theorem givenName_filled (path : Value) : givenName path ≠ some "" := by
  unfold givenName
  split
  case h_1 name =>
    split
    case isTrue => exact nofun
    case isFalse filled =>
      intro same
      exact filled (by rw [Option.some.inj same]; rfl)
  case h_2 => exact nofun

/-! ### One demand after another -/

/-- If a log file is asked for, a path is given, or nothing. -/
def Demand.IsNamed : Demand → Prop
  | openLog _ path => IsLogPath path
  | _ => True

/-- How the last call for a log file has ended after a demand. -/
def Demand.ending (journal : Journal) (before : Except Fault Unit) : Demand → Except Fault Unit
  | openLog files path => (journal.setFile files path).result
  | _ => before

/-- How the last call for a log file has ended after demands one after another. -/
def ending (journal : Journal) (before : Except Fault Unit) : List Demand → Except Fault Unit
  | [] => before
  | demand :: rest => ending (demand.on journal) (demand.ending journal before) rest

/-- What a journal names and what is attached, by how the last call for a log file has ended. -/
structure Told (journal : Journal) (ended : Except Fault Unit) : Prop where
  filled : journal.logFile ≠ some ""
  truthful : ended = .ok () → journal.Truthful
  refused : ∀ fault, ended = .error fault → journal.paths = [] ∧ ∃ name, journal.logFile = some name

variable {ended : Except Fault Unit}

theorem Ends.named {opened : Opened} (ends : Ends path opened) : opened.journal.logFile = givenName path := by
  cases ends with
  | closed given result named attached => rw [named, given]
  | refused name fault given result named attached => rw [named, given]
  | taken name given result named attached present => rw [named, given]

theorem Ends.told {opened : Opened} (ends : Ends path opened) : Told opened.journal opened.result := by
  have filled : opened.journal.logFile ≠ some "" := by
    rw [ends.named]
    exact givenName_filled path
  cases ends with
  | closed given result named attached =>
      refine ⟨filled, fun _ => ?_, fun fault refused => ?_⟩
      · rw [Truthful, attached, named]
        rfl
      · cases result.symm.trans refused
  | refused name fault given result named attached =>
      refine ⟨filled, fun fine => ?_, fun _ _ => ⟨attached, name, named⟩⟩
      cases result.symm.trans fine
  | taken name given result named attached present =>
      refine ⟨filled, fun _ => ?_, fun fault refused => ?_⟩
      · rw [Truthful, attached, named]
        rfl
      · cases result.symm.trans refused

theorem Told.truthful_iff (told : Told journal ended) : journal.Truthful ↔ ended = .ok () := by
  refine ⟨fun truthful => ?_, told.truthful⟩
  cases ended with
  | ok => rfl
  | error fault =>
      obtain ⟨unattached, name, named⟩ := told.refused fault rfl
      rw [Truthful, unattached, named] at truthful
      cases truthful

/-- Demands that ask for no log file leave the one that is named and the one that is attached. -/
theorem Told.of_same {other : Journal} (told : Told journal ended) (named : other.logFile = journal.logFile)
    (attached : other.paths = journal.paths) : Told other ended := by
  obtain ⟨filled, truthful, refused⟩ := told
  refine ⟨by rwa [named], fun fine => ?_, fun fault failed => ?_⟩
  · rw [Truthful, attached, named]
    exact truthful fine
  · rw [attached, named]
    exact refused fault failed

theorem paths_setLevels (journal : Journal) (console : Int) (file : Option Int) :
    (journal.setLevels (.ok console) (file.map .ok)).1.paths = journal.paths := by
  have same : Sink.path? ∘ Sink.relevelled file = Sink.path? := by
    funext sink
    cases sink <;> rfl
  rw [setLevels_eq, paths, List.filterMap_map, same]
  rfl

theorem paths_setConsole (journal : Journal) (attached : Bool) :
    (journal.setConsole attached).paths = journal.paths ∧ (journal.setConsole attached).logFile = journal.logFile := by
  unfold setConsole
  split
  · split
    · exact ⟨rfl, rfl⟩
    · refine ⟨?_, rfl⟩
      rw [paths, List.filterMap_append]
      exact List.append_nil _
  · refine ⟨?_, rfl⟩
    rw [paths, List.filterMap_filter]
    refine List.filterMap_congr fun sink member => ?_
    cases sink <;> rfl

theorem Told.on (told : Told journal ended) {demand : Demand} (named : demand.IsNamed) :
    Told (demand.on journal) (demand.ending journal ended) := by
  cases demand with
  | levels console file =>
      exact told.of_same (by simp only [Demand.on, setLevels_eq]) (paths_setLevels journal console file)
  | attach attached =>
      obtain ⟨attached, named⟩ := paths_setConsole journal attached
      exact told.of_same named attached
  | openLog files path => exact (setFile_ends journal files path named).told

theorem Told.after {demands : List Demand} (told : Told journal ended)
    (named : ∀ demand ∈ demands, demand.IsNamed) : Told (journal.after demands) (ending journal ended demands) := by
  induction demands generalizing journal ended with
  | nil => exact told
  | cons demand rest ih =>
      obtain ⟨here, others⟩ := List.forall_mem_cons.mp named
      exact ih (told.on here) others

/-- A log file that can be opened is attached behind the other sinks. -/
theorem setFile_opened {name : String} {level : Int} {opened : Files} (filled : name ≠ "")
    (parent : files.makeParent name = ⟨files, .ok ()⟩) (opens : files.openLog name = .ok opened)
    (fits : journal.fileLevel = .ok level) :
    journal.setFile files (.text name) = ⟨{ journal with
      logFile := some name
      sinks := journal.sinks.filter (fun sink => !sink.isFile) ++ [.file name level] }, opened, .ok (),
      [fileRecord name]⟩ := by
  have named : Value.isTrue (.text name) = true := by simp [Value.isTrue, filled]
  simp only [setFile, named, parent, opens, fits, Bool.not_true, Bool.false_eq_true, if_false]

/-- The usual journal with a log file. -/
theorem initial_openLog (name : String) (plain : Files.IsName name) (parent : Files.makeParent {} name = ⟨{}, .ok ()⟩) :
    (initial.setFile {} (.text name)).journal = ⟨20, .ok 10, some name, [.console, .file name 10]⟩ ∧
      (initial.setFile {} (.text name)).result = .ok () := by
  have free : Files.node? {} [name] = none := by simp [Files.node?, plain.stays]
  rw [setFile_opened plain.given parent (Files.openLog_name plain free) rfl]
  exact ⟨rfl, rfl⟩

/-- A log file is named truthfully if and only if the last call for one went well, whatever else is asked of a
journal. Then the records go to this file and to no other; after a call that was refused they go to none, though one
is named. Each call names what it is given, and is refused or leaves a file at that place. -/
theorem log_file_told_iff {console file : Int} {first : Value}
    (made : make (.int console) (.int file) first = .ok (journal, files)) (given : IsLogPath first)
    (demands : List Demand) (named : ∀ demand ∈ demands, demand.IsNamed) :
    let reached := journal.after demands
    let ended := ending journal (.ok ()) demands
    reached.logFile ≠ some "" ∧ (reached.Truthful ↔ ended = .ok ()) ∧
    (ended = .ok () → ∀ now records, (reached.write now records).1 =
      match reached.logFile with
      | none => now
      | some name =>
          now.addText name (reached.text (.file name (askedFor console file demands).file) records)) ∧
    (∀ fault, ended = .error fault → (∃ name, reached.logFile = some name) ∧ reached.paths = [] ∧
      ∀ now records, (reached.write now records).1 = now) ∧
    ∀ now path, IsLogPath path →
      let opened := reached.setFile now path
      opened.journal.logFile = givenName path ∧ (opened.journal.Truthful ↔ opened.result = .ok ()) ∧
      (opened.result = .ok () → ∀ name, givenName path = some name →
        ∃ content, opened.files.node? (Path.settled name) = some (.file content)) := by
  intro reached ended
  have start : Told journal (.ok ()) := by
    obtain ⟨same, fine⟩ := make_cases made
    rw [← same, ← fine]
    exact (setFile_ends _ _ _ given).told
  have told : Told reached ended := start.after named
  refine ⟨told.filled, told.truthful_iff, fun fine now records => ?_, fun fault failed => ?_, fun now path asked => ?_⟩
  · have truthful := told.truthful fine
    unfold Truthful at truthful
    generalize reached.logFile = logFile at truthful ⊢
    cases logFile with
    | none => exact write_unattached truthful now records
    | some name =>
        obtain ⟨level, member, written⟩ := write_attached truthful now records
        rw [written, ((made_inStep made).after demands).carried name level member]
        rfl
  · obtain ⟨unattached, name, same⟩ := told.refused fault failed
    exact ⟨⟨name, same⟩, unattached, write_unattached unattached⟩
  · have ends := setFile_ends reached now path asked
    refine ⟨ends.named, ends.told.truthful_iff, fun fine name filled => ?_⟩
    cases ends with
    | closed given result named attached => cases given.symm.trans filled
    | refused other fault given result named attached => cases result.symm.trans fine
    | taken other given result named attached present =>
        cases given.symm.trans filled
        exact present

/-- Records go to the log file that was asked for, with the level that was asked for. -/
theorem log_file_told_iff_levels :
    let demands : List Demand := [.openLog {} (.text "a.log"), .levels 40 (some 30), .attach false]
    let reached := initial.after demands
    reached.logFile = some "a.log" ∧ reached.Truthful ∧ ∀ now records,
      (reached.write now records).1 = now.addText "a.log" (reached.text (.file "a.log" 30) records) := by
  intro demands reached
  obtain ⟨opened, fine⟩ := initial_openLog "a.log" (by constructor <;> decide) rfl
  have logged : reached.logFile = some "a.log" := by
    change ((initial.setFile {} (.text "a.log")).journal.after [.levels 40 (some 30), .attach false]).logFile = _
    rw [opened]
    rfl
  have named : ∀ demand ∈ demands, demand.IsNamed := by
    intro demand member
    simp only [demands, List.mem_cons, List.not_mem_nil, or_false] at member
    rcases member with rfl | rfl | rfl
    · exact .inr ⟨_, rfl⟩
    all_goals trivial
  have made : make (.int 20) (.int 10) .null = .ok (initial, {}) := rfl
  obtain ⟨-, told, written, -⟩ := log_file_told_iff made (.inl rfl) demands named
  have ended : ending initial (.ok ()) demands = .ok () := fine
  refine ⟨logged, told.mpr ended, fun now records => ?_⟩
  rw [written ended, show (initial.after demands).logFile = some "a.log" from logged]
  rfl

/-- A call that is refused gives the old log file up, and names a directory for one. -/
theorem refused_log_untold :
    let logged := (initial.setFile {} (.text "a.log")).journal
    let refused := logged.setFile ⟨[(["d"], .directory)]⟩ (.text "d")
    make (.int 20) (.int 10) .null = .ok (initial, {}) ∧ logged.logFile = some "a.log" ∧ logged.paths = ["a.log"] ∧
      refused.result = .error (.file .isDirectory (Files.absolute "d")) ∧ refused.journal.logFile = some "d" ∧
      refused.journal.paths = [] ∧ ¬refused.journal.Truthful := by
  intro logged refused
  have opened : logged = ⟨20, .ok 10, some "a.log", [.console, .file "a.log" 10]⟩ :=
    (initial_openLog "a.log" (by constructor <;> decide) rfl).1
  have directory : Files.openLog ⟨[(["d"], .directory)]⟩ "d" = .error (.file .isDirectory (Files.absolute "d")) :=
    Files.openLog_directory (by constructor <;> decide) rfl
  have parent : Files.makeParent ⟨[(["d"], .directory)]⟩ "d" = ⟨⟨[(["d"], .directory)]⟩, .ok ()⟩ := rfl
  have closed : refused = ⟨⟨20, .ok 10, some "d", [.console]⟩, ⟨[(["d"], .directory)]⟩,
      .error (.file .isDirectory (Files.absolute "d")), []⟩ := by
    have named : Value.isTrue (.text "d") = true := rfl
    simp only [refused, opened, setFile, named, parent, directory]
    rfl
  rw [opened, closed]
  refine ⟨rfl, rfl, rfl, rfl, rfl, rfl, fun told => ?_⟩
  cases told

end Journal

end ChipEight
