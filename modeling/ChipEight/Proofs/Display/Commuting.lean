/-
This file compares draws that are made in different orders. On every grid with pixels a sprite turns over the
pixels under its mask, whatever they were, so only the number of times counts: draws commute, two equal ones
cancel, and a sprite may be moved by whole sides of the grid.
-/

import ChipEight.Proofs.Display.Compositing

namespace ChipEight.Display

/-- Displays of one size with the same pixels are the same. -/
theorem eq_of_pixelAt {first second : Display} (same : first.SameSize second)
    (shown : ∀ x y, first.pixelAt x y = second.pixelAt x y) : first = second := by
  obtain ⟨width, height, rows⟩ := first
  obtain ⟨_, _, others⟩ := second
  obtain ⟨rfl, rfl⟩ := same
  congr 1
  ext y down x across
  simpa [pixelAt, down, across] using shown x y

/-! ### The mask of a sprite -/

/-- Of the places on which something falls, the last one decides. -/
theorem foldl_range_last (count : Nat) (falls : Nat → Prop) [DecidablePred falls] (value : Nat → Bool) :
    (List.range count).foldl (fun bit place => if falls place then value place else bit) false = true ↔
      ∃ place < count, falls place ∧ (∀ later < count, place < later → ¬ falls later) ∧ value place = true := by
  induction count with
  | zero => simp
  | succ count ih =>
      rw [List.range_succ, List.foldl_append, List.foldl_cons, List.foldl_nil]
      by_cases here : falls count
      · rw [if_pos here]
        constructor
        · exact fun set => ⟨count, by omega, here, fun later inside behind => by omega, set⟩
        · rintro ⟨place, inside, there, last, set⟩
          have same : place = count := Nat.le_antisymm (Nat.le_of_lt_succ inside)
            (Nat.not_lt.mp fun behind => last count (Nat.lt_succ_self count) behind here)
          exact same ▸ set
      · rw [if_neg here, ih]
        constructor
        · rintro ⟨place, inside, there, last, set⟩
          refine ⟨place, by omega, there, fun later below behind => ?_, set⟩
          rcases Nat.lt_succ_iff_lt_or_eq.mp below with before | rfl
          · exact last later before behind
          · exact here
        · rintro ⟨place, inside, there, last, set⟩
          have other : place ≠ count := fun same => here (same ▸ there)
          exact ⟨place, by omega, there, fun later below => last later (by omega), set⟩

/-- The last row and the last column of a sprite that fall on a place meet in a bit that is set. -/
def Covers (width height : Nat) (x y : Int) (sprite : List UInt8) (px py : Nat) : Prop :=
  ∃ row : Nat, row < min tallestSprite sprite.length ∧ ∃ column : Nat, column < 8 ∧
    ((y + row) % height = py ∧ ∀ later : Nat, later < min tallestSprite sprite.length → row < later →
      (y + later) % height ≠ py) ∧
    ((x + column) % width = px ∧ ∀ later : Nat, later < 8 → column < later → (x + later) % width ≠ px) ∧
    (sprite.getD row 0).toNat.testBit (7 - column) = true

instance (width height : Nat) (x y : Int) (sprite : List UInt8) (px py : Nat) :
    Decidable (Covers width height x y sprite px py) :=
  inferInstanceAs (Decidable (∃ row : Nat, row < min tallestSprite sprite.length ∧ ∃ column : Nat, column < 8 ∧
    ((y + row) % height = py ∧ ∀ later : Nat, later < min tallestSprite sprite.length → row < later →
      (y + later) % height ≠ py) ∧
    ((x + column) % width = px ∧ ∀ later : Nat, later < 8 → column < later → (x + later) % width ≠ px) ∧
    (sprite.getD row 0).toNat.testBit (7 - column) = true))

theorem mask_iff_covers {width height : Nat} {x y : Int} {sprite : List UInt8} (within : InRange x y sprite)
    (wide : 0 < width) (high : 0 < height) (px py : Nat) :
    mask (spriteCells width height x y sprite) px py = true ↔ Covers width height x y sprite px py := by
  rw [spriteCells_eq within, mask, List.foldl_map, foldl_range_last]
  simp only [wrap_eq_iff wide, wrap_eq_iff high, Covers]
  constructor
  · rintro ⟨place, inside, ⟨across, down⟩, last, set⟩
    refine ⟨place / 8, by omega, place % 8, by omega, ⟨down, fun later below behind there => ?_⟩,
      ⟨across, fun later below behind there => ?_⟩, set⟩
    · apply last (8 * later + place % 8) (by omega) (by omega)
      rw [show (8 * later + place % 8) % 8 = place % 8 by omega, show (8 * later + place % 8) / 8 = later by omega]
      exact ⟨across, there⟩
    · apply last (8 * (place / 8) + later) (by omega) (by omega)
      rw [show (8 * (place / 8) + later) % 8 = later by omega,
        show (8 * (place / 8) + later) / 8 = place / 8 by omega]
      exact ⟨there, down⟩
  · rintro ⟨row, inside, column, small, ⟨down, lowest⟩, ⟨across, rightmost⟩, set⟩
    have atRow : (8 * row + column) / 8 = row := by omega
    have atColumn : (8 * row + column) % 8 = column := by omega
    refine ⟨8 * row + column, by omega, ?_, fun later below behind there => ?_, ?_⟩
    · rw [atRow, atColumn]
      exact ⟨across, down⟩
    · -- A later cell is in a later row, or else in the same row and a later column.
      by_cases beneath : row < later / 8
      · exact lowest (later / 8) (by omega) beneath there.2
      · exact rightmost (later % 8) (by omega) (by omega) there.1
    · rw [atRow, atColumn]
      exact set

/-! ### Strokes -/

/-- A sprite and its position. -/
structure Stroke where
  x : Int
  y : Int
  sprite : List UInt8

namespace Stroke

/-- All coordinates that the stroke reaches are words. -/
def Fits (stroke : Stroke) : Prop := InRange stroke.x stroke.y stroke.sprite

instance (stroke : Stroke) : Decidable stroke.Fits :=
  inferInstanceAs (Decidable (InRange stroke.x stroke.y stroke.sprite))

def on (stroke : Stroke) (display : Display) : Except Fault (Display × Bool) :=
  display.draw stroke.x stroke.y stroke.sprite

def cells (stroke : Stroke) (width height : Nat) : List Cell :=
  spriteCells width height stroke.x stroke.y stroke.sprite

/-- The stroke turns over this place of a grid. -/
def covers (stroke : Stroke) (width height x y : Nat) : Bool :=
  decide (Covers width height stroke.x stroke.y stroke.sprite x y)

def moved (stroke : Stroke) (across down : Int) : Stroke :=
  { stroke with x := stroke.x + across, y := stroke.y + down }

end Stroke

/-- The display after strokes one after another. -/
def drawAll (display : Display) (strokes : List Stroke) : Except Fault Display :=
  strokes.foldlM (fun current stroke => (stroke.on current).map Prod.fst) display

variable {display : Display} {stroke : Stroke} {strokes others : List Stroke}

theorem Stroke.on_eq (fits : stroke.Fits) (wide : 0 < display.width) (high : 0 < display.height) :
    stroke.on display = .ok (display.turn (stroke.cells display.width display.height),
      display.meets (stroke.cells display.width display.height)) :=
  draw_eq fits fun _ => ⟨wide, high⟩

theorem Stroke.mask_cells {width height : Nat} (fits : stroke.Fits) (wide : 0 < width) (high : 0 < height)
    (x y : Nat) : mask (stroke.cells width height) x y = stroke.covers width height x y := by
  rw [Bool.eq_iff_iff, Stroke.cells, mask_iff_covers fits wide high, Stroke.covers, decide_eq_true_iff]

/-- Being odd changes with one more. -/
theorem odd_succ (count : Nat) (more : Bool) :
    decide ((count + if more then 1 else 0) % 2 = 1) = (more ^^ decide (count % 2 = 1)) := by
  cases more with
  | false => simp
  | true => rcases Nat.mod_two_eq_zero_or_one count with even | odd <;> simp [Nat.add_mod, *]

/-- Each pixel is turned over as many times as strokes cover its place. -/
theorem drawAll_pixelAt (wide : 0 < display.width) (high : 0 < display.height)
    (fits : ∀ stroke ∈ strokes, stroke.Fits) :
    ∃ drawn, display.drawAll strokes = .ok drawn ∧ drawn.SameSize display ∧ ∀ x y,
      drawn.pixelAt x y = (display.pixelAt x y ^^
        decide (strokes.countP (fun stroke => stroke.covers display.width display.height x y) % 2 = 1)) := by
  induction strokes generalizing display with
  | nil => exact ⟨display, rfl, .refl display, by simp⟩
  | cons stroke rest ih =>
      have fit := fits stroke List.mem_cons_self
      have draws := Stroke.on_eq fit wide high
      have inside : ∀ cell ∈ stroke.cells display.width display.height,
          cell.x < display.width ∧ cell.y < display.height := spriteCells_inside wide fun _ => high
      have same := display.turn_sameSize (stroke.cells display.width display.height)
      generalize turned : display.turn (stroke.cells display.width display.height) = next at draws same
      obtain ⟨drawn, ends, size, pixels⟩ := ih (same.1 ▸ wide) (same.2 ▸ high)
        fun other member => fits other (List.mem_cons_of_mem stroke member)
      refine ⟨drawn, ?_, size.trans same, fun x y => ?_⟩
      · rw [drawAll, List.foldlM_cons, draws]
        exact ends
      · rw [pixels, same.1, same.2, ← turned, turn_pixelAt inside, Stroke.mask_cells fit wide high,
          List.countP_cons, odd_succ]
        exact Bool.xor_assoc _ _ _

/-- Strokes that cover each place equally often, or twice more, end in the same display. -/
theorem drawAll_congr (wide : 0 < display.width) (high : 0 < display.height)
    (fits : ∀ stroke ∈ strokes, stroke.Fits) (others_fit : ∀ stroke ∈ others, stroke.Fits)
    (even : ∀ x y, strokes.countP (fun stroke => stroke.covers display.width display.height x y) % 2 =
      others.countP (fun stroke => stroke.covers display.width display.height x y) % 2) :
    display.drawAll strokes = display.drawAll others := by
  obtain ⟨first, ends, size, pixels⟩ := drawAll_pixelAt wide high fits
  obtain ⟨second, stops, also, shown⟩ := drawAll_pixelAt wide high others_fit
  have same : first = second := by
    apply eq_of_pixelAt (size.trans ⟨also.1.symm, also.2.symm⟩)
    intro x y
    rw [pixels, shown, even]
  rw [ends, stops, same]

/-- Moving a stroke by whole sides of the grid does not move its cells. -/
theorem Stroke.cells_moved {width height : Nat} (i j : Int) (fits : stroke.Fits)
    (within : (stroke.moved (i * width) (j * height)).Fits) :
    (stroke.moved (i * width) (j * height)).cells width height = stroke.cells width height := by
  have turns (side : Nat) (whole position : Int) (distance : Nat) :
      wrap side (position + whole * side + distance) = wrap side (position + distance) := by
    rw [wrap, Int.add_right_comm, Int.add_mul_emod_self_right]
    rfl
  rw [Stroke.cells, Stroke.cells, spriteCells_eq within, spriteCells_eq fits]
  simp only [Stroke.moved, turns]

theorem Stroke.on_moved (i j : Int) (fits : stroke.Fits) (wide : 0 < display.width) (high : 0 < display.height)
    (within : (stroke.moved (i * display.width) (j * display.height)).Fits) :
    (stroke.moved (i * display.width) (j * display.height)).on display = stroke.on display := by
  rw [Stroke.on_eq within wide high, Stroke.on_eq fits wide high, Stroke.cells_moved i j fits within]

/-- On every grid with pixels, also one that is smaller than the sprites, strokes whose coordinates are words
can be drawn and turn each pixel over as many times as they cover its place. So their order does not matter,
two that are equal cancel wherever they stand, and moving one by whole sides of the grid changes nothing, not
even a collision. -/
theorem draws_commute (wide : 0 < display.width) (high : 0 < display.height)
    (fits : ∀ stroke ∈ strokes, stroke.Fits) :
    ∃ drawn, display.drawAll strokes = .ok drawn ∧
      (∀ x y, drawn.pixelAt x y = (display.pixelAt x y ^^
        decide (strokes.countP (fun stroke => stroke.covers display.width display.height x y) % 2 = 1))) ∧
      (∀ permuted : List Stroke, permuted.Perm strokes → display.drawAll permuted = .ok drawn) ∧
      (∀ early stroke between late, strokes = early ++ stroke :: between ++ stroke :: late →
        display.drawAll (early ++ between ++ late) = .ok drawn) ∧
      ∀ early stroke late (i j : Int), strokes = early ++ stroke :: late →
        (stroke.moved (i * display.width) (j * display.height)).Fits →
        display.drawAll (early ++ stroke.moved (i * display.width) (j * display.height) :: late) = .ok drawn ∧
          ∀ current : Display, current.SameSize display →
            (stroke.moved (i * display.width) (j * display.height)).on current = stroke.on current := by
  obtain ⟨drawn, ends, -, pixels⟩ := drawAll_pixelAt wide high fits
  refine ⟨drawn, ends, pixels, fun permuted same => ?_, ?_, ?_⟩
  · rw [← ends]
    apply drawAll_congr wide high (fun stroke member => fits stroke (same.mem_iff.mp member)) fits
    intro x y
    rw [same.countP_eq]
  · rintro early stroke between late rfl
    rw [← ends]
    apply drawAll_congr wide high (fun other member => fits other ?_) fits
    · intro x y
      simp only [List.countP_append, List.countP_cons]
      omega
    · simp only [List.mem_append, List.mem_cons] at member ⊢
      rcases member with (first | second) | third
      · exact .inl (.inl first)
      · exact .inl (.inr (.inr second))
      · exact .inr (.inr third)
  · rintro early stroke late i j rfl within
    have fit : stroke.Fits := fits stroke (by simp)
    refine ⟨?_, fun current same => ?_⟩
    · rw [← ends]
      apply drawAll_congr wide high ?_ fits
      · intro x y
        simp only [List.countP_append, List.countP_cons, ← Stroke.mask_cells fit wide high,
          ← Stroke.mask_cells within wide high, Stroke.cells_moved i j fit within]
      · intro other member
        rcases List.mem_append.mp member with first | last
        · exact fits other (List.mem_append_left _ first)
        · rcases List.mem_cons.mp last with rfl | later
          · exact within
          · exact fits other (List.mem_append_right _ (List.mem_cons_of_mem _ later))
    · rw [← same.1, ← same.2] at within ⊢
      exact Stroke.on_moved i j fit (same.1 ▸ wide) (same.2 ▸ high) within

/-- Two sprites that cover each other and themselves on a grid of three by two, in both orders. -/
theorem draws_commute_narrow :
    let strokes : List Stroke := [⟨-1, 0, [0xf0, 0x91, 0xff]⟩, ⟨5, 7, [0x81]⟩]
    ∃ drawn, (blank 3 2).drawAll strokes = .ok drawn ∧ (blank 3 2).drawAll strokes.reverse = .ok drawn ∧
      drawn.pixelAt 0 0 = true ∧ drawn.pixelAt 0 1 = false ∧ drawn.pixelAt 2 0 = true := by
  intro strokes
  obtain ⟨drawn, ends, pixels, permuted, -⟩ := draws_commute (show 0 < (blank 3 2).width by decide)
    (show 0 < (blank 3 2).height by decide) (show ∀ stroke ∈ strokes, stroke.Fits by decide)
  refine ⟨drawn, ends, permuted _ (List.reverse_perm strokes), ?_⟩
  simp only [pixels]
  decide

end ChipEight.Display
