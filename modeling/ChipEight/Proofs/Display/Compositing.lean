/-
This file says what a sprite does to each pixel. Its cells leave a mask, which does not depend on the pixels,
and the pixels under the mask are turned over. On a grid that is not smaller than the sprite the mask is the
picture of the sprite, and a collision means that some pixel was turned off.
-/

import ChipEight.Proofs.Display.Draw

namespace ChipEight.Display

variable {display : Display} {reached : List Cell}

theorem setAt_pixelAt (display : Display) {x y : Nat} (across : x < display.width) (down : y < display.height)
    (lit : Bool) (px py : Nat) :
    (display.setAt x y lit).pixelAt px py = if px = x ∧ py = y then lit else display.pixelAt px py := by
  have changed : display.setAt x y lit =
      { display with rows := display.rows.set y ((display.rows[y]).setIfInBounds x lit) } := dif_pos down
  rw [changed]
  simp only [pixelAt]
  by_cases below : py < display.height
  · by_cases right : px < display.width
    · simp only [below, right, dite_true, Vector.getElem_set]
      by_cases row : y = py
      · subst row
        simp [Vector.getElem_setIfInBounds, eq_comm]
      · simp [row, Ne.symm row]
    · have other : px ≠ x := by omega
      simp [right, other]
  · have other : py ≠ y := by omega
    simp [below, other]

/-- The bit of the last cell on a place, if there is one. -/
def mask (reached : List Cell) (x y : Nat) : Bool :=
  reached.foldl (fun bit cell => if cell.x = x ∧ cell.y = y then cell.turned else bit) false

/-- A pixel is turned over if the mask has a bit there, whatever its cells turned before. -/
theorem turn_pixelAt (inside : ∀ cell ∈ reached, cell.x < display.width ∧ cell.y < display.height) (x y : Nat) :
    (display.turn reached).pixelAt x y = (display.pixelAt x y ^^ mask reached x y) := by
  unfold turn mask
  -- The changed grid shows the old pixel turned by the bit that fell last, which is no bit at first.
  suffices turns : ∀ (changed : Display) (bit : Bool), changed.SameSize display →
      changed.pixelAt x y = (display.pixelAt x y ^^ bit) →
      (reached.foldl (fun changed cell =>
        changed.setAt cell.x cell.y (display.pixelAt cell.x cell.y != cell.turned)) changed).pixelAt x y =
      (display.pixelAt x y ^^
        reached.foldl (fun bit cell => if cell.x = x ∧ cell.y = y then cell.turned else bit) bit) from
    turns display false (.refl display) (Bool.xor_false _).symm
  induction reached with
  | nil => exact fun changed bit _ shown => shown
  | cons cell rest ih =>
      intro changed bit same shown
      obtain ⟨across, down⟩ := inside cell List.mem_cons_self
      apply ih fun other member => inside other (List.mem_cons_of_mem cell member)
      · exact (setAt_sameSize changed cell.x cell.y _).trans same
      · rw [setAt_pixelAt changed (same.1 ▸ across) (same.2 ▸ down)]
        by_cases here : cell.x = x ∧ cell.y = y
        · obtain ⟨rfl, rfl⟩ := here
          simp
        · rw [if_neg fun there => here ⟨there.1.symm, there.2.symm⟩]
          simpa only [if_neg here] using shown

theorem mask_cases (reached : List Cell) (x y : Nat) :
    mask reached x y = false ∧ (∀ cell ∈ reached, ¬ (cell.x = x ∧ cell.y = y)) ∨
      ∃ cell ∈ reached, cell.x = x ∧ cell.y = y ∧ mask reached x y = cell.turned := by
  unfold mask
  generalize false = bit
  induction reached generalizing bit with
  | nil => exact .inl ⟨rfl, by simp⟩
  | cons cell rest ih =>
      rw [List.foldl_cons]
      rcases ih (if cell.x = x ∧ cell.y = y then cell.turned else bit) with ⟨same, apart⟩ | ⟨last, member, there⟩
      · by_cases here : cell.x = x ∧ cell.y = y
        · rw [if_pos here] at same ⊢
          exact .inr ⟨cell, List.mem_cons_self, here.1, here.2, same⟩
        · rw [if_neg here] at same ⊢
          refine .inl ⟨same, fun other member => ?_⟩
          rcases List.mem_cons.mp member with rfl | later
          · exact here
          · exact apart other later
      · exact .inr ⟨last, List.mem_cons_of_mem cell member, there⟩

/-- Cells that fall on one place are the same. -/
def Apart (reached : List Cell) : Prop :=
  ∀ cell ∈ reached, ∀ other ∈ reached, cell.x = other.x → cell.y = other.y → cell = other

theorem mask_iff (apart : Apart reached) (x y : Nat) :
    mask reached x y = true ↔ ∃ cell ∈ reached, cell.x = x ∧ cell.y = y ∧ cell.turned = true := by
  rcases mask_cases reached x y with ⟨unset, free⟩ | ⟨last, member, across, down, same⟩
  · simp only [unset, Bool.false_eq_true, false_iff, not_exists, not_and]
    exact fun cell there across down => absurd ⟨across, down⟩ (free cell there)
  · rw [same]
    constructor
    · exact fun turned => ⟨last, member, across, down, turned⟩
    · rintro ⟨cell, there, column, row, turned⟩
      rw [apart last member cell there (across.trans column.symm) (down.trans row.symm)]
      exact turned

/-- If no two cells fall on one place, a lit pixel is met exactly if it is turned off. -/
theorem meets_iff (apart : Apart reached)
    (inside : ∀ cell ∈ reached, cell.x < display.width ∧ cell.y < display.height) :
    display.meets reached = true ↔
      ∃ x y, display.pixelAt x y = true ∧ (display.turn reached).pixelAt x y = false := by
  simp only [meets, List.any_eq_true, Bool.and_eq_true, turn_pixelAt inside]
  constructor
  · rintro ⟨cell, member, lit, turned⟩
    have falls : mask reached cell.x cell.y = true := (mask_iff apart _ _).mpr ⟨cell, member, rfl, rfl, turned⟩
    exact ⟨cell.x, cell.y, lit, by rw [lit, falls]; rfl⟩
  · rintro ⟨x, y, lit, off⟩
    rw [lit, Bool.true_xor, Bool.not_eq_false'] at off
    obtain ⟨cell, member, rfl, rfl, turned⟩ := (mask_iff apart x y).mp off
    exact ⟨cell, member, lit, turned⟩

/-! ### The cells of a sprite -/

variable {width height : Nat} {x y : Int} {sprite : List UInt8}

/-- Rows of eight make one long row. -/
theorem flatMap_range {A : Type} (item : Nat → Nat → A) (count : Nat) :
    (List.range count).flatMap (fun row => (List.range 8).map (item row)) =
      (List.range (8 * count)).map fun place => item (place / 8) (place % 8) := by
  induction count with
  | zero => rfl
  | succ count ih =>
      rw [show List.range (count + 1) = List.range count ++ [count] from List.range_succ, List.flatMap_append,
        ih, Nat.mul_succ, List.range_add, List.map_append]
      congr 1
      rw [List.flatMap_singleton, List.map_map]
      apply List.map_congr_left
      intro column inside
      have small : column < 8 := List.mem_range.mp inside
      rw [Function.comp_apply, show (8 * count + column) / 8 = count by omega,
        show (8 * count + column) % 8 = column by omega]

theorem zipIdx_eq_map (items : List UInt8) :
    items.zipIdx = (List.range items.length).map fun row => (items.getD row 0, row) := by
  apply List.ext_getElem
  · simp
  · intro row inside _
    have present : row < items.length := by simpa using inside
    simp [present]

/-- The cells of a sprite in one row, eight for each of its bytes. -/
theorem cells_eq_map : cells width height x y sprite = (List.range (8 * sprite.length)).map fun place =>
    ⟨wrap width (offset x (place % 8)), wrap height (offset y (place / 8)),
      bit (sprite.getD (place / 8) 0) (place % 8)⟩ := by
  rw [cells, zipIdx_eq_map, List.flatMap_map]
  exact flatMap_range (fun row column =>
    Cell.mk (wrap width (offset x column)) (wrap height (offset y row)) (bit (sprite.getD row 0) column)) _

theorem offset_eq {position : Int} {distance : Nat} (within : isPosition (position + distance) = true) :
    offset position distance = position + distance := by
  have limit : Nat.pow 2 (64 - 1) = 9223372036854775808 := rfl
  have whole : Nat.pow 2 64 = 18446744073709551616 := rfl
  simp only [isPosition, Bits.isSigned, Bool.and_eq_true, decide_eq_true_eq, limit] at within
  simp only [offset, Bits.signed, limit, whole]
  omega

theorem wrap_eq_iff {side : Nat} (positive : 0 < side) (position : Int) (place : Nat) :
    wrap side position = place ↔ position % side = place := by
  have low := Int.emod_nonneg position (show (side : Int) ≠ 0 by omega)
  unfold wrap
  omega

/-- Places of a row or a column that is not longer than the side are different. -/
theorem wrap_inj {side first second : Nat} {position : Int} (fits : first < side) (also : second < side)
    (same : wrap side (position + first) = wrap side (position + second)) : first = second := by
  have positive : 0 < side := by omega
  have even := (wrap_eq_iff positive _ _).mp same
  rw [← (wrap_eq_iff positive _ _).mp rfl, Int.add_comm position, Int.add_comm position,
    Int.emod_add_cancel_right, Int.emod_eq_of_lt (by omega) (by omega),
    Int.emod_eq_of_lt (by omega) (by omega)] at even
  exact Int.ofNat.inj even

/-- All coordinates that a sprite reaches are words. -/
def InRange (x y : Int) (sprite : List UInt8) : Prop :=
  ∀ row : Nat, row < min tallestSprite sprite.length → ∀ column : Nat, column < 8 →
    isPosition (x + column) = true ∧ isPosition (y + row) = true

instance : Decidable (InRange x y sprite) :=
  inferInstanceAs (Decidable (∀ row : Nat, row < min tallestSprite sprite.length → ∀ column : Nat,
    column < 8 → isPosition (x + column) = true ∧ isPosition (y + row) = true))

/-- A row and a column of a sprite fall on a place of the grid, with a bit that is set. -/
def Paints (width height : Nat) (x y : Int) (sprite : List UInt8) (px py : Nat) : Prop :=
  ∃ row : Nat, row < min tallestSprite sprite.length ∧ ∃ column : Nat, column < 8 ∧
    (y + row) % height = py ∧ (x + column) % width = px ∧
      (sprite.getD row 0).toNat.testBit (7 - column) = true

instance (px py : Nat) : Decidable (Paints width height x y sprite px py) :=
  inferInstanceAs (Decidable (∃ row : Nat, row < min tallestSprite sprite.length ∧ ∃ column : Nat,
    column < 8 ∧ (y + row) % height = py ∧ (x + column) % width = px ∧
      (sprite.getD row 0).toNat.testBit (7 - column) = true))

/-- The cells of the rows that are drawn. -/
def spriteCells (width height : Nat) (x y : Int) (sprite : List UInt8) : List Cell :=
  cells width height x y (sprite.take tallestSprite)

theorem spriteCells_eq (within : InRange x y sprite) :
    spriteCells width height x y sprite =
      (List.range (8 * min tallestSprite sprite.length)).map fun place =>
        ⟨wrap width (x + (place % 8 : Nat)), wrap height (y + (place / 8 : Nat)),
          bit (sprite.getD (place / 8) 0) (place % 8)⟩ := by
  rw [spriteCells, cells_eq_map, List.length_take]
  apply List.map_congr_left
  intro place inside
  have below : place / 8 < min tallestSprite sprite.length := by
    have := List.mem_range.mp inside
    omega
  obtain ⟨across, down⟩ := within (place / 8) below (place % 8) (Nat.mod_lt place (by decide))
  rw [offset_eq across, offset_eq down, List.getD_eq_getElem?_getD, List.getElem?_take,
    if_pos (Nat.lt_min.mp below).1, ← List.getD_eq_getElem?_getD]

theorem mem_spriteCells (within : InRange x y sprite) {cell : Cell} :
    cell ∈ spriteCells width height x y sprite ↔
      ∃ row : Nat, row < min tallestSprite sprite.length ∧ ∃ column : Nat, column < 8 ∧
        cell = ⟨wrap width (x + column), wrap height (y + row), bit (sprite.getD row 0) column⟩ := by
  simp only [spriteCells_eq within, List.mem_map, List.mem_range]
  constructor
  · rintro ⟨place, inside, rfl⟩
    exact ⟨place / 8, by omega, place % 8, by omega, rfl⟩
  · rintro ⟨row, inside, column, small, rfl⟩
    refine ⟨8 * row + column, by omega, ?_⟩
    rw [show (8 * row + column) / 8 = row by omega, show (8 * row + column) % 8 = column by omega]

/-- A cell with a set bit falls on a place exactly if the sprite paints it. -/
theorem turned_iff_paints (within : InRange x y sprite) (wide : 0 < width)
    (high : sprite ≠ [] → 0 < height) (px py : Nat) :
    (∃ cell ∈ spriteCells width height x y sprite, cell.x = px ∧ cell.y = py ∧ cell.turned = true) ↔
      Paints width height x y sprite px py := by
  have filled {row : Nat} (inside : row < min tallestSprite sprite.length) : 0 < height :=
    high fun none => by simp [none] at inside
  simp only [mem_spriteCells within, Paints]
  constructor
  · rintro ⟨cell, ⟨row, inside, column, small, rfl⟩, across, down, set⟩
    exact ⟨row, inside, column, small, (wrap_eq_iff (filled inside) _ _).mp down,
      (wrap_eq_iff wide _ _).mp across, set⟩
  · rintro ⟨row, inside, column, small, down, across, set⟩
    exact ⟨_, ⟨row, inside, column, small, rfl⟩, (wrap_eq_iff wide _ _).mpr across,
      (wrap_eq_iff (filled inside) _ _).mpr down, set⟩

/-- On a grid that is not smaller than the sprite no two of its cells fall on one place. -/
theorem spriteCells_apart (within : InRange x y sprite) (wide : 8 ≤ width)
    (high : min tallestSprite sprite.length ≤ height) : Apart (spriteCells width height x y sprite) := by
  intro cell member other also across down
  obtain ⟨row, inside, column, small, rfl⟩ := (mem_spriteCells within).mp member
  obtain ⟨second, below, place, near, rfl⟩ := (mem_spriteCells within).mp also
  obtain rfl := wrap_inj (by omega) (by omega) across
  obtain rfl := wrap_inj (by omega) (by omega) down
  rfl

/-- A sprite whose coordinates are words is drawn on every grid with pixels: its cells are turned. -/
theorem draw_eq (within : InRange x y sprite) (sized : sprite ≠ [] → 0 < display.width ∧ 0 < display.height) :
    display.draw x y sprite = .ok (display.turn (spriteCells display.width display.height x y sprite),
      display.meets (spriteCells display.width display.height x y sprite)) := by
  have free : display.drawFault? x y (sprite.take tallestSprite) = none := by
    cases sprite with
    | nil => rfl
    | cons byte rest =>
        obtain ⟨wide, high⟩ := sized (List.cons_ne_nil byte rest)
        have first : 0 < min tallestSprite (byte :: rest).length :=
          Nat.lt_min.mpr ⟨by decide, Nat.succ_pos _⟩
        obtain ⟨across, down⟩ := within 0 first 0 (by decide)
        simp only [Int.natCast_zero, Int.add_zero] at across down
        simp [drawFault?, across, down, Nat.ne_of_gt wide, Nat.ne_of_gt high]
  simp only [draw, free]
  rfl

theorem spriteCells_inside (wide : 0 < width) (high : sprite ≠ [] → 0 < height) :
    ∀ cell ∈ spriteCells width height x y sprite, cell.x < width ∧ cell.y < height := by
  intro cell member
  have filled : sprite ≠ [] := by
    rintro rfl
    simp [spriteCells, cells] at member
  exact cells_inside wide (high filled) x y _ cell member

/-- On a grid that is not smaller than the sprite each pixel is turned over exactly if the sprite paints its
place, and all others stay; a collision means that a lit pixel was turned off. -/
theorem draw_composites {display : Display} {x y : Int} {sprite : List UInt8} (wide : 8 ≤ display.width)
    (high : min tallestSprite sprite.length ≤ display.height) (within : InRange x y sprite) :
    ∃ drawn collision, display.draw x y sprite = .ok (drawn, collision) ∧ drawn.SameSize display ∧
      (∀ px py, drawn.pixelAt px py = (display.pixelAt px py ^^
        decide (Paints display.width display.height x y sprite px py))) ∧
      (collision = true ↔ ∃ px py, display.pixelAt px py = true ∧ drawn.pixelAt px py = false) := by
  have filled : sprite ≠ [] → 0 < display.height := fun some => by
    have := List.length_pos_iff.mpr some
    unfold tallestSprite at high
    omega
  have apart := spriteCells_apart within wide high
  have inside : ∀ cell ∈ spriteCells display.width display.height x y sprite,
      cell.x < display.width ∧ cell.y < display.height := spriteCells_inside (by omega) filled
  refine ⟨_, _, draw_eq within fun some => ⟨by omega, filled some⟩, turn_sameSize _ _, fun px py => ?_,
    meets_iff apart inside⟩
  rw [turn_pixelAt inside]
  congr 1
  rw [Bool.eq_iff_iff, mask_iff apart, decide_eq_true_iff, turned_iff_paints within (by omega) filled]

/-- A sprite that goes over both edges turns off the pixel that was lit, and turns on others. -/
theorem draw_composites_edges :
    let display := (blank 8 3).setAt 5 1 true
    let sprite : List UInt8 := [0xf0, 0x81, 0xff]
    ∃ drawn, display.draw (-3) 1000 sprite = .ok (drawn, true) ∧ drawn.pixelAt 5 1 = false ∧
      drawn.pixelAt 0 1 = true ∧ drawn.pixelAt 1 1 = false ∧ drawn.pixelAt 4 2 = true ∧
      drawn.pixelAt 7 0 = true := by
  intro display sprite
  obtain ⟨drawn, collision, draws, -, pixels, met⟩ := draw_composites (show 8 ≤ display.width by decide)
    (show min tallestSprite sprite.length ≤ display.height by decide)
    (show InRange (-3) 1000 sprite by decide)
  have off : drawn.pixelAt 5 1 = false := by
    rw [pixels]
    decide
  have collides : collision = true := met.mpr ⟨5, 1, by decide, off⟩
  refine ⟨drawn, collides ▸ draws, off, ?_⟩
  simp only [pixels]
  decide

end ChipEight.Display
