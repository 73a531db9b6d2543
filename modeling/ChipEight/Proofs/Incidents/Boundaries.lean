/-
This file follows results and faults through boundaries that lie around one another. A result passes all of them. A
fault is recorded by each boundary of the system and by the first other one, which stops it.
-/

import ChipEight.Incidents.Boundary
import ChipEight.Proofs.Incidents.History

namespace ChipEight

namespace Incidents

variable {incidents : Incidents} {count : Nat} {log : List Incident}

/-- What is written to the log of reports one after another. -/
def recordsAll (incidents : Incidents) : List Report → List Record
  | [] => []
  | report :: rest => (incidents.handle report).records ++ (incidents.handle report).incidents.recordsAll rest

theorem handleAll_performed (incidents : Incidents) (reports : List Report) :
    incidents.handleAll reports = incidents.performed (reports.map .report) := by
  rw [performed, List.foldl_map]
  rfl

theorem noted_reports (log : List Incident) (reports : List Report) :
    (reports.map Deed.report).foldl Deed.noted log = log ++ reports.map .ofReport := by
  induction reports generalizing log with
  | nil => exact (List.append_nil log).symm
  | cons report rest ih =>
      rw [List.map_cons, List.foldl_cons, Deed.noted, ih, List.map_cons, List.append_assoc, List.singleton_append]

/-- What is kept may be taken for the log. -/
theorem Keeps.again (keeping : Keeps incidents count log) : Keeps incidents count incidents.kept where
  keeps := keeping.keeps
  bound := keeping.bound
  latest := by
    have fits : incidents.kept.length - count = 0 := by
      rw [keeping.latest, List.length_drop]
      omega
    rw [fits, List.drop_zero]

end Incidents

namespace Boundary

variable {A : Type} {site : Site} {fault : Fault}

/-- A result leaves no trace at any boundary. -/
theorem passAll_ok (site : Site) (incidents : Incidents) (value : A) (boundaries : List (Boundary A)) :
    passAll site incidents (.ok value) boundaries = ⟨incidents, .ok value, []⟩ := by
  induction boundaries with
  | nil => rfl
  | cons boundary outer ih => rw [passAll, pass, ih, List.nil_append]

/-- A fault that ends the host leaves none either. -/
theorem passAll_exit (site : Site) (incidents : Incidents) (exits : fault.isExit = true)
    (boundaries : List (Boundary A)) :
    passAll site incidents (.error fault) boundaries = ⟨incidents, .error fault, []⟩ := by
  induction boundaries with
  | nil => rfl
  | cons boundary outer ih => rw [passAll, pass, if_pos exits, ih, List.nil_append]

/-- How far a fault comes: past all boundaries if they are of the system, or else to the first that is not. -/
inductive Comes (fault : Fault) : List (Boundary A) → List (Boundary A) → Except Fault A → Prop
  | through (boundaries : List (Boundary A)) (systems : ∀ boundary ∈ boundaries, boundary.category = .system) :
      Comes fault boundaries boundaries (.error fault)
  | stopped (inner : List (Boundary A)) (boundary : Boundary A) (outer : List (Boundary A))
      (systems : ∀ boundary ∈ inner, boundary.category = .system) (stops : boundary.category ≠ .system) :
      Comes fault (inner ++ boundary :: outer) (inner ++ [boundary]) (.ok boundary.instead)

theorem Comes.past {boundary : Boundary A} {outer heard : List (Boundary A)} {result : Except Fault A}
    (comes : Comes fault outer heard result) (system : boundary.category = .system) :
    Comes fault (boundary :: outer) (boundary :: heard) result := by
  cases comes with
  | through _ systems => exact .through _ (List.forall_mem_cons.mpr ⟨system, systems⟩)
  | stopped inner last others systems stops =>
      exact .stopped (boundary :: inner) last others (List.forall_mem_cons.mpr ⟨system, systems⟩) stops

/-- A fault is handed over by a boundary and goes on if that is one of the system. -/
theorem pass_reported (boundary : Boundary A) (site : Site) (incidents : Incidents) (stays : fault.isExit = false) :
    boundary.pass site incidents (.error fault) =
      ⟨(incidents.handle (boundary.report site fault)).incidents,
        if boundary.category == .system then .error fault else .ok boundary.instead,
        (incidents.handle (boundary.report site fault)).records⟩ := by
  simp only [pass, stays, Bool.false_eq_true, if_false]

/-- The boundaries to which a fault comes hand it over one after another, and no others do. -/
theorem passAll_reported (site : Site) (incidents : Incidents) (stays : fault.isExit = false)
    (boundaries : List (Boundary A)) :
    ∃ heard result, Comes fault boundaries heard result ∧
      passAll site incidents (.error fault) boundaries =
        ⟨incidents.handleAll (heard.map fun boundary => boundary.report site fault), result,
          incidents.recordsAll (heard.map fun boundary => boundary.report site fault)⟩ := by
  induction boundaries generalizing incidents with
  | nil => exact ⟨[], .error fault, .through [] nofun, rfl⟩
  | cons boundary outer ih =>
      by_cases system : boundary.category = .system
      · obtain ⟨heard, result, comes, further⟩ := ih (incidents.handle (boundary.report site fault)).incidents
        refine ⟨boundary :: heard, result, comes.past system, ?_⟩
        rw [passAll, pass_reported boundary site incidents stays, if_pos (beq_iff_eq.mpr system), further]
        rfl
      · refine ⟨[boundary], .ok boundary.instead, .stopped [] boundary outer nofun system, ?_⟩
        rw [passAll, pass_reported boundary site incidents stays, if_neg (by simpa using system), passAll_ok]
        rfl

/-- Whatever was done with the incidents before, a result passes boundaries around one another unchanged, and nothing
is recorded. A fault comes past the boundaries of the system and to the first other one, whose value the caller gets;
if there is none, the caller gets the fault. Each boundary to which it comes hands it over once, the innermost first,
so that these incidents come behind those that are kept, each an error of the boundary's category. Only a fault that
ends the host passes all boundaries unrecorded. -/
theorem nested_boundaries (site : Site) (boundaries : List (Boundary A)) (deeds : List Incidents.Deed) :
    let incidents := Incidents.initial.performed deeds
    (∀ value, passAll site incidents (.ok value) boundaries = ⟨incidents, .ok value, []⟩) ∧
    (∀ fault : Fault, fault.isExit = false → ∃ heard result, Comes fault boundaries heard result ∧
      let reports := heard.map fun boundary => boundary.report site fault
      let passage := passAll site incidents (.error fault) boundaries
      let recorded := reports.map .ofReport
      passage = ⟨incidents.handleAll reports, result, incidents.recordsAll reports⟩ ∧
      passage.incidents.kept =
        (incidents.kept ++ recorded).drop ((incidents.kept ++ recorded).length - 100) ∧
      recorded.map (fun incident => (incident.level, incident.category, incident.cause)) =
        heard.map fun boundary => (.error, boundary.category, some (fault.kind, .raised))) ∧
    ∀ fault : Fault, fault.isExit = true →
      passAll site incidents (.error fault) boundaries = ⟨incidents, .error fault, []⟩ := by
  intro incidents
  refine ⟨fun value => passAll_ok site incidents value boundaries, fun fault stays => ?_,
    fun fault exits => passAll_exit site incidents exits boundaries⟩
  obtain ⟨heard, result, comes, passed⟩ := passAll_reported site incidents stays boundaries
  refine ⟨heard, result, comes, passed, ?_, ?_⟩
  · have start : Incidents.Keeps .initial 100 [] := ⟨rfl, rfl, rfl⟩
    have keeping := (start.performed (by decide) deeds).again.performed (by decide)
      ((heard.map fun boundary => boundary.report site fault).map .report)
    rw [passed]
    dsimp only
    rw [Incidents.handleAll_performed, keeping.latest, Incidents.noted_reports]
  · rw [List.map_map, List.map_map]
    rfl

/-- A fault passes a boundary of the system, is stopped by the next one, although its watcher fails, and does not come
to the last. -/
theorem nested_boundaries_three :
    let boundaries : List (Boundary Nat) := [⟨.system, 1⟩, ⟨.input, 2⟩, ⟨.decode, 3⟩]
    let fails := Watcher.steady "fail" (some .zeroDivisor) (by rintro _ ⟨⟩; rfl)
    let passage := passAll ⟨"wrapped", "oracle"⟩
      (Incidents.initial.performed [.watch .input fails]) (.error .wrongKind) boundaries
    passage.result = .ok 2 ∧ passage.incidents.kept.map (fun incident => (incident.level, incident.category)) =
      [(.error, .system), (.error, .input)] := by
  intro boundaries fails passage
  obtain ⟨-, faults, -⟩ := nested_boundaries ⟨"wrapped", "oracle"⟩ boundaries [.watch .input fails]
  obtain ⟨heard, result, comes, passed, kept, -⟩ := faults .wrongKind rfl
  have far : heard = [⟨.system, 1⟩, ⟨.input, 2⟩] ∧ result = .ok 2 := by
    generalize same : boundaries = all at comes
    cases comes with
    | through _ systems => exact absurd (systems ⟨.input, 2⟩ (by simp [← same, boundaries])) (by decide)
    | stopped inner boundary outer systems stops =>
        rcases inner with _ | ⟨first, _ | ⟨second, rest⟩⟩
        · exact absurd (congrArg Boundary.category (List.cons.inj same).1).symm stops
        · obtain ⟨rfl, rfl, -⟩ : ⟨.system, 1⟩ = first ∧ ⟨.input, 2⟩ = boundary ∧ [⟨.decode, 3⟩] = outer := by
            simpa [boundaries] using same
          exact ⟨rfl, rfl⟩
        · have here : second = ⟨.input, 2⟩ := (List.cons.inj (List.cons.inj same).2).1.symm
          exact absurd (systems second (by simp)) (by rw [here]; decide)
  obtain ⟨rfl, rfl⟩ := far
  refine ⟨congrArg Passage.result passed, ?_⟩
  have all : passage.incidents.kept = _ := kept
  rw [all]
  rfl

end Boundary

end ChipEight
