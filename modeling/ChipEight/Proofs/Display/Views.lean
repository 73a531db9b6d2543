/-
This file compares the ways to look at a display. Whatever was done with it, the buffer and the lines of marks hold
the pixels of the grid, each at its place.
-/

import ChipEight.Proofs.Display.Compositing
import ChipEight.Proofs.Text.Splitting

namespace ChipEight.Display

variable {display : Display}

/-! ### Rows behind one another -/

section

variable {A B : Type} {row : A → List B} {width : Nat} {items : List A}

theorem length_flatMap_even (even : ∀ item ∈ items, (row item).length = width) :
    (items.flatMap row).length = items.length * width := by
  induction items with
  | nil => exact (Nat.zero_mul width).symm
  | cons item rest ih =>
      obtain ⟨here, others⟩ := List.forall_mem_cons.mp even
      rw [List.flatMap_cons, List.length_append, here, ih others, List.length_cons, Nat.succ_mul, Nat.add_comm]

/-- Of rows of one length behind one another, each begins where the ones before it end. -/
theorem getElem?_flatMap_even (even : ∀ item ∈ items, (row item).length = width) {x : Nat} (inside : x < width)
    (y : Nat) : (items.flatMap row)[y * width + x]? = items[y]?.bind fun item => (row item)[x]? := by
  induction items generalizing y with
  | nil => rfl
  | cons item rest ih =>
      obtain ⟨here, others⟩ := List.forall_mem_cons.mp even
      rw [List.flatMap_cons]
      cases y with
      | zero =>
          rw [Nat.zero_mul, Nat.zero_add, List.getElem?_append_left (here.symm ▸ inside)]
          rfl
      | succ y =>
          have behind : (y + 1) * width + x = (row item).length + (y * width + x) := by
            rw [here, Nat.succ_mul]
            omega
          rw [behind, List.getElem?_append_right (Nat.le_add_right _ _), Nat.add_sub_cancel_left, ih others]
          rfl

end

theorem row_pixelAt (display : Display) {x y : Nat} (across : x < display.width) (down : y < display.height) :
    (display.rows.toList[y]?.bind fun row => row.toList[x]?) = some (display.pixelAt x y) := by
  simp [pixelAt, across, down]

theorem pixels_length (display : Display) : display.pixels.length = display.width * display.height := by
  rw [pixels, length_flatMap_even fun row _ => row.length_toList, Vector.length_toList, Nat.mul_comm]

theorem pixels_pixelAt (display : Display) {x y : Nat} (across : x < display.width) (down : y < display.height) :
    display.pixels[y * display.width + x]? = some (display.pixelAt x y) := by
  rw [pixels, getElem?_flatMap_even (fun row _ => row.length_toList) across, row_pixelAt display across down]

theorem pixel_eq (display : Display) (x y : Nat) : display.pixel x y = display.pixelAt x y := by
  simp [pixel]

/-- As many pixels are lit as there are bytes of 255. -/
theorem countLit_eq (display : Display) : display.countLit = display.buffer.count 255 := by
  rw [countLit, buffer, List.count, List.count, List.countP_map]
  refine List.countP_congr fun lit _ => ?_
  cases lit <;> decide

/-! ### Lines of marks -/

/-- The mark in a column of a line. -/
def markAt (lines : List String) (x y : Nat) : Option Char :=
  lines[y]?.bind fun line => line.toList[x]?

/-- A row as a line of marks. -/
def line (lit dark : Char) (row : List Bool) : String :=
  String.ofList (row.map fun pixel => if pixel then lit else dark)

theorem join_marks (lit dark : Char) (row : List Bool) :
    String.join (row.map fun pixel => if pixel then String.singleton lit else String.singleton dark) =
      line lit dark row := by
  induction row with
  | nil => rfl
  | cons pixel rest ih =>
      rw [List.map_cons, String.join_cons, ih]
      apply String.toList_injective
      cases pixel <;> simp [line]

/-- What was rendered is cut into the lines that it was made of. -/
theorem render_lines {lit dark : Char} (filled : 0 < display.height) (plain : lit ≠ '\n' ∧ dark ≠ '\n') :
    (display.render (String.singleton lit) (String.singleton dark)).splitOn "\n" =
      display.rows.toList.map fun row => line lit dark row.toList := by
  simp only [render, join_marks]
  apply Text.splitOn_intercalate
  · rw [Ne, List.map_eq_nil_iff, ← List.length_eq_zero_iff, Vector.length_toList]
    exact Nat.ne_of_gt filled
  · intro part member
    obtain ⟨row, -, rfl⟩ := List.mem_map.mp member
    rw [line, String.toList_ofList, List.mem_map]
    rintro ⟨pixel, -, mark⟩
    cases pixel with
    | true => exact plain.1 mark
    | false => exact plain.2 mark

theorem markAt_lines (display : Display) (lit dark : Char) {x y : Nat} (across : x < display.width)
    (down : y < display.height) :
    markAt (display.rows.toList.map fun row => line lit dark row.toList) x y =
      some (if display.pixelAt x y then lit else dark) := by
  have there := row_pixelAt display across down
  rw [Option.bind_eq_some_iff] at there
  obtain ⟨row, found, pixel⟩ := there
  rw [markAt, List.getElem?_map, found, Option.map_some, Option.bind_some, line, String.toList_ofList,
    List.getElem?_map, pixel, Option.map_some]

/-! ### One update after another -/

/-- What is done with a display: it is cleared, a pixel is set, or a sprite is drawn. -/
inductive Update where
  | clear
  | setPixel (x y : Int) (lit : Bool)
  | draw (x y : Int) (sprite : List UInt8)

/-- The display after an update. One that is refused leaves it. -/
def Update.on (display : Display) : Update → Display
  | clear => display.clear
  | setPixel x y lit => (display.setPixel x y lit).toOption.getD display
  | draw x y sprite => ((display.draw x y sprite).toOption.map Prod.fst).getD display

def updated (display : Display) (updates : List Update) : Display :=
  updates.foldl Update.on display

theorem Update.on_sameSize (display : Display) (update : Update) : (update.on display).SameSize display := by
  cases update with
  | clear => exact clear_sameSize display
  | setPixel x y lit =>
      change ((display.setPixel x y lit).toOption.getD display).SameSize display
      unfold Display.setPixel
      split
      · exact .refl display
      · exact setAt_sameSize display _ _ lit
  | draw x y sprite =>
      change (((display.draw x y sprite).toOption.map Prod.fst).getD display).SameSize display
      unfold Display.draw
      dsimp only
      split
      · exact .refl display
      · exact turn_sameSize display _

theorem updated_sameSize (display : Display) (updates : List Update) :
    (display.updated updates).SameSize display := by
  induction updates generalizing display with
  | nil => exact .refl display
  | cons update rest ih => exact (ih (update.on display)).trans (update.on_sameSize display)

/-- A display that is made has the sides that are asked for. -/
theorem make_sides {room : Nat} {width height : Int} (made : make room width height = .ok display) :
    (display.width : Int) = width ∧ (display.height : Int) = height := by
  unfold make at made
  dsimp only at made
  split at made
  case isTrue => cases made
  case isFalse proper =>
    split at made
    case isTrue => cases made
    split at made
    case isTrue => cases made
    cases made
    have signs : 0 ≤ width ∧ 0 ≤ height := by simpa using proper
    exact ⟨Int.toNat_of_nonneg signs.1, Int.toNat_of_nonneg signs.2⟩

/-- On a grid with pixels one can be set at every position, and the others stay. -/
theorem setPixel_pixel (wide : 0 < display.width) (high : 0 < display.height) (x y : Int) (lit : Bool) :
    ∃ changed, display.setPixel x y lit = .ok changed ∧ ∀ px py : Nat, changed.pixel px py =
      if (px : Int) = x % display.width ∧ (py : Int) = y % display.height then lit else display.pixel px py := by
  have place {side : Nat} (positive : 0 < side) (position : Int) (p : Nat) :
      p = wrap side position ↔ (p : Int) = position % side := by
    have low := Int.emod_nonneg position (show (side : Int) ≠ 0 by omega)
    unfold wrap
    omega
  have filled : (display.height == 0 || display.width == 0) = false := by simp [Nat.ne_of_gt high, Nat.ne_of_gt wide]
  refine ⟨_, by rw [setPixel, filled]; rfl, fun px py => ?_⟩
  simp only [pixel_eq, setAt_pixelAt display (wrap_inside wide x) (wrap_inside high y), place wide, place high]

/-- Whatever is done with a display, its sides stay, and all views show the same pixels: the buffer has one byte for
each, row by row, as many of them 255 as are counted; and two different marks make a line of each row, from which each
pixel is read. A pixel can be set at every position, which wraps. -/
theorem views_agree {room : Nat} {width height : Int} (wide : 0 < width) (high : 0 < height)
    (made : make room width height = .ok display) (updates : List Update) :
    let shown := display.updated updates
    (shown.width = width ∧ shown.height = height) ∧ shown.buffer.length = shown.width * shown.height ∧
    (∀ x y : Nat, x < shown.width → y < shown.height →
      shown.buffer[y * shown.width + x]? = some (if shown.pixel x y then 255 else 0)) ∧
    shown.countLit = shown.buffer.count 255 ∧
    (∀ lit dark : Char, lit ≠ dark → lit ≠ '\n' → dark ≠ '\n' →
      ∃ text, shown.renderWith (.text (.singleton lit)) (.text (.singleton dark)) = .ok text ∧
        (text.splitOn "\n").length = shown.height ∧ (∀ line ∈ text.splitOn "\n", line.length = shown.width) ∧
        ∀ x y : Nat, x < shown.width → y < shown.height →
          markAt (text.splitOn "\n") x y = some (if shown.pixel x y then lit else dark) ∧
            shown.pixel x y = (markAt (text.splitOn "\n") x y == some lit)) ∧
    ∀ (x y : Int) (lit : Bool), ∃ changed, shown.setPixel x y lit = .ok changed ∧ ∀ px py : Nat,
      changed.pixel px py =
        if (px : Int) = x % shown.width ∧ (py : Int) = y % shown.height then lit else shown.pixel px py := by
  intro shown
  have sides : (shown.width : Int) = width ∧ (shown.height : Int) = height := by
    obtain ⟨across, down⟩ := updated_sameSize display updates
    obtain ⟨here, there⟩ := make_sides made
    exact ⟨across ▸ here, down ▸ there⟩
  refine ⟨sides, ?_, fun x y across down => ?_, countLit_eq shown, fun lit dark other litPlain darkPlain => ?_,
    setPixel_pixel (by omega) (by omega)⟩
  · rw [buffer, List.length_map, pixels_length]
  · rw [buffer, List.getElem?_map, pixels_pixelAt shown across down, pixel_eq]
    rfl
  · refine ⟨_, rfl, ?_⟩
    rw [render_lines (by omega) ⟨litPlain, darkPlain⟩]
    refine ⟨by rw [List.length_map, Vector.length_toList], fun part member => ?_, fun x y across down => ?_⟩
    · obtain ⟨row, -, rfl⟩ := List.mem_map.mp member
      simp [line]
    · rw [markAt_lines shown lit dark across down, pixel_eq]
      refine ⟨rfl, ?_⟩
      cases shown.pixelAt x y with
      | true => simp
      | false => simp [other.symm]

/-- A pixel that was set beyond the edges is found in the buffer and among the marks. -/
theorem views_agree_small :
    let shown := (blank 3 2).updated [.draw 1 0 [0xc0], .clear, .setPixel (-1) 5 true]
    make 6 3 2 = .ok (blank 3 2) ∧ shown.buffer[1 * 3 + 2]? = some 255 ∧ shown.buffer[0 * 3 + 1]? = some 0 ∧
      ∃ text, shown.renderWith (.text "#") (.text ".") = .ok text ∧ markAt (text.splitOn "\n") 2 1 = some '#' ∧
        markAt (text.splitOn "\n") 1 0 = some '.' := by
  intro shown
  have made : make 6 3 2 = .ok (blank 3 2) := rfl
  obtain ⟨-, -, bytes, -, marks, -⟩ := views_agree (by decide) (by decide) made
    [.draw 1 0 [0xc0], .clear, .setPixel (-1) 5 true]
  have lit : shown.pixel (2 : Nat) (1 : Nat) = true := by decide
  have dark : ¬shown.pixel (1 : Nat) (0 : Nat) = true := by decide
  obtain ⟨text, rendered, -, -, read⟩ := marks '#' '.' (by decide) (by decide) (by decide)
  refine ⟨made, ?_, ?_, text, rendered, ?_, ?_⟩
  · exact (bytes 2 1 (by decide) (by decide)).trans (congrArg some (if_pos lit))
  · exact (bytes 1 0 (by decide) (by decide)).trans (congrArg some (if_neg dark))
  · exact (read 2 1 (by decide) (by decide)).1.trans (congrArg some (if_pos lit))
  · exact (read 1 0 (by decide) (by decide)).1.trans (congrArg some (if_neg dark))

end ChipEight.Display
