/-
This file guards functions. A fault that reaches a boundary becomes an incident, and the caller gets
the value that the boundary has instead; only faults of the system go on.
-/

import ChipEight.Incidents

namespace ChipEight

/-- The category of a boundary and the value that it gives for a fault. -/
structure Boundary (A : Type) where
  category : Category
  instead : A

/-- The function behind a boundary. -/
structure Site where
  function : String
  holder : String

namespace Boundary

/-- What comes out of a boundary. -/
structure Passage (A : Type) where
  incidents : Incidents
  result : Except Fault A
  records : List Record

def report {A : Type} (boundary : Boundary A) (site : Site) (fault : Fault) : Report :=
  .exception (some (fault, .raised)) (some (.text ("Error in " ++ site.function ++ ": " ++ fault.text)))
    boundary.category (Value.record [("function", .text site.function), ("module", .text site.holder)])

/-- A result passes unchanged. A fault is reported once, unless it ends the host. -/
def pass {A : Type} (boundary : Boundary A) (site : Site) (incidents : Incidents) :
    Except Fault A → Passage A
  | .ok value => ⟨incidents, .ok value, []⟩
  | .error fault =>
      if fault.isExit then ⟨incidents, .error fault, []⟩
      else
        let handled := incidents.handle (boundary.report site fault)
        let result :=
          if boundary.category == .system then .error fault else .ok boundary.instead
        ⟨handled.incidents, result, handled.records⟩

/-- A result passes through boundaries one after another, the innermost first. -/
def passAll {A : Type} (site : Site) (incidents : Incidents) (result : Except Fault A) :
    List (Boundary A) → Passage A
  | [] => ⟨incidents, result, []⟩
  | boundary :: outer =>
      let inner := boundary.pass site incidents result
      let rest := passAll site inner.incidents inner.result outer
      ⟨rest.incidents, rest.result, inner.records ++ rest.records⟩

end Boundary

/-- The record of a call that took longer than it should. Times are in milliseconds, and the one
that was measured is shown as the caller wrote it. -/
def slowRecord? (function : String) (elapsed : Int) (threshold : Value) (shown : String) :
    Except Fault (Option Record) := do
  if ← threshold.less (.int elapsed) then
    pure (some ⟨.warning, Incident.rootLogger, "Performance: " ++ function ++ " took " ++ shown ++
      "ms (threshold: " ++ threshold.shown ++ "ms)"⟩)
  else pure none

end ChipEight
