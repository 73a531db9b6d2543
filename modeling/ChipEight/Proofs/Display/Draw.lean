/-
This file follows the drawing of sprites: it goes through on every grid that has pixels, reaches
pixels of the grid only, and keeps the size of the grid.
-/

import ChipEight.Display

namespace ChipEight.Display

/-- Both displays have the same sides. -/
def SameSize (first second : Display) : Prop :=
  first.width = second.width ∧ first.height = second.height

theorem SameSize.refl (display : Display) : display.SameSize display := ⟨rfl, rfl⟩

theorem SameSize.trans {first second third : Display} (start : first.SameSize second)
    (rest : second.SameSize third) : first.SameSize third :=
  ⟨start.1.trans rest.1, start.2.trans rest.2⟩

theorem clear_sameSize (display : Display) : display.clear.SameSize display := ⟨rfl, rfl⟩

/-- A display that is cleared has no lit pixel. -/
theorem clear_pixelAt (display : Display) (x y : Nat) :
    display.clear.pixelAt x y = false := by
  unfold pixelAt clear blank
  split
  · split
    · simp only [Vector.getElem_ofFn, Vector.getElem_replicate]
    · rfl
  · rfl

theorem setAt_sameSize (display : Display) (x y : Nat) (lit : Bool) :
    (display.setAt x y lit).SameSize display := by
  unfold setAt
  split <;> exact ⟨rfl, rfl⟩

theorem turn_sameSize (display : Display) (reached : List Cell) :
    (display.turn reached).SameSize display := by
  unfold turn
  -- The old pixels stay those of `display` while the changed grid goes along.
  suffices kept : ∀ changed : Display, changed.SameSize display →
      (reached.foldl (fun changed cell =>
        changed.setAt cell.x cell.y (display.pixelAt cell.x cell.y != cell.turned)) changed).SameSize
          display from kept display (.refl display)
  induction reached with
  | nil => intro changed same; exact same
  | cons cell rest ih =>
      intro changed same
      exact ih _ ((setAt_sameSize changed cell.x cell.y _).trans same)

theorem wrap_inside {side : Nat} (positive : 0 < side) (position : Int) :
    wrap side position < side := by
  have low := Int.emod_nonneg position (show (side : Int) ≠ 0 by omega)
  have high := Int.emod_lt_of_pos position (show (0 : Int) < side by omega)
  unfold wrap
  omega

/-- A sprite reaches pixels of the grid only. -/
theorem cells_inside {width height : Nat} (wide : 0 < width) (high : 0 < height) (x y : Int)
    (sprite : List UInt8) :
    ∀ cell ∈ cells width height x y sprite, cell.x < width ∧ cell.y < height := by
  intro cell member
  unfold cells at member
  obtain ⟨row, -, inRow⟩ := List.mem_flatMap.mp member
  obtain ⟨across, -, same⟩ := List.mem_map.mp inRow
  rw [← same]
  exact ⟨wrap_inside wide _, wrap_inside high _⟩

/-- A byte is a position. -/
theorem isPosition_byte {position : Int} (low : 0 ≤ position) (high : position ≤ 255) :
    isPosition position = true := by
  have limit : Nat.pow 2 (64 - 1) = 9223372036854775808 := rfl
  simp only [isPosition, Bits.isSigned, Bool.and_eq_true, decide_eq_true_eq, limit]
  omega

/-- A grid with pixels takes every sprite whose position is a word. -/
theorem draw_returns {display : Display} (wide : 0 < display.width) (high : 0 < display.height)
    {x y : Int} (across : isPosition x = true) (down : isPosition y = true)
    (sprite : List UInt8) :
    ∃ drawn collision, display.draw x y sprite = .ok (drawn, collision) ∧
      drawn.SameSize display := by
  have free : display.drawFault? x y (sprite.take tallestSprite) = none := by
    simp [drawFault?, across, down, Nat.ne_of_gt wide, Nat.ne_of_gt high]
  unfold draw
  dsimp only
  rw [free]
  exact ⟨_, _, rfl, turn_sameSize _ _⟩

end ChipEight.Display
