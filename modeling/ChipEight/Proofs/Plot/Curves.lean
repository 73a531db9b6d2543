/-
This file says which registers are plotted. Three passes have to agree for that: the names that the recorder knows,
the changes of a register, and its cycles and values. Together they draw one curve for each register that has had
different values in the snapshots that are held.
-/

import ChipEight.Plot
import ChipEight.Proofs.Recorder.Gathering

namespace ChipEight

namespace Recorder

variable {recorder : Recorder} {states : List Value} {name : String}

/-! ### Registers with different values -/

/-- Two snapshots hold a register with different values. -/
def IsActive (states : List Value) (name : String) : Prop :=
  ∃ one ∈ states, ∃ other ∈ states, ∃ first second,
    registerOf name one = some first ∧ registerOf name other = some second ∧ first ≠ second

/-- The cycle, if there is one, and the value of each snapshot that holds a register. -/
def shownBy (name : String) (states : List Value) : List (Option Value × Value) :=
  states.filterMap fun state => (registerOf name state).map fun value => (state.field? "cycle", value)

/-- The points of the curve of a register. A snapshot without a cycle has its place among them for one. -/
def points (name : String) (states : List Value) : List (Value × Value) :=
  (shownBy name states).zipIdx.map fun point => (point.1.1.getD (.int point.2), point.1.2)

theorem IsActive.points (active : IsActive states name) : points name states ≠ [] := by
  obtain ⟨one, here, -, -, first, -, former, -⟩ := active
  have shown : (one.field? "cycle", first) ∈ shownBy name states :=
    List.mem_filterMap.mpr ⟨one, here, by rw [former]; rfl⟩
  intro none
  rw [Recorder.points, List.map_eq_nil_iff, List.zipIdx_eq_nil_iff] at none
  rw [none] at shown
  exact nomatch shown

end Recorder

namespace Plot

open Recorder

variable {recorder : Recorder} {names : List String}

end Plot

end ChipEight
