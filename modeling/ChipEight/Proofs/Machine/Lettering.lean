/-
This file draws the glyphs. However a machine got to its state, the glyphs are in its memory, so a program that asks for
the glyph of a register and draws it turns over the pixels under that glyph, and nothing else but the flag.
-/

import ChipEight.Proofs.Display.Compositing
import ChipEight.Proofs.Instruction.Word
import ChipEight.Proofs.Machine.Execution
import ChipEight.Proofs.Machine.Invariant
import ChipEight.Proofs.Machine.Storage
import ChipEight.Proofs.Memory.Ranges

namespace ChipEight

namespace Memory

/-- The rows of the glyph of a digit. -/
def glyph (digit : Nat) : List UInt8 := (glyphs.drop (glyphHeight * digit)).take glyphHeight

theorem length_glyph {digit : Nat} (small : digit < 16) : (glyph digit).length = glyphHeight := by
  have count : glyphs.length = 80 := rfl
  unfold glyph glyphHeight
  rw [List.length_take, List.length_drop, count]
  omega

theorem glyphAddress_digit {digit : Nat} (small : digit < 16) :
    glyphAddress digit = (glyphStart + glyphHeight * digit : Nat) := by
  unfold glyphAddress
  rw [if_pos ⟨by omega, by omega⟩]
  unfold glyphHeight
  omega

/-- Where the glyphs are in place, the rows of a glyph are read from its address on. -/
theorem HoldsGlyphs.readEach {memory : Memory} (held : memory.HoldsGlyphs) {digit : Nat} (small : digit < 16) :
    (memory.readEach (glyphAddress digit) glyphHeight).value = glyph digit := by
  have count : glyphs.length = 80 := rfl
  have rows := length_glyph small
  rw [readEach_value, glyphAddress_digit small]
  apply List.ext_getElem
  · rw [List.length_map, List.length_range, rows]
  · intro row _ inside
    have within : glyphHeight * digit + row < glyphs.length := by
      unfold glyphHeight at rows ⊢
      omega
    have here := held _ within
    rw [List.getElem_map, List.getElem_range, ← Int.natCast_add, Nat.add_assoc, here]
    simp only [glyph, List.getElem_take, List.getElem_drop]

end Memory

namespace Display

variable {width height : Nat} {x y : Int} {sprite : List UInt8}

/-- Some lit pixel was turned off. -/
def Darkens (before after : Display) : Prop :=
  ∃ px py, before.pixelAt px py = true ∧ after.pixelAt px py = false

/-- A sprite whose position is given by bytes reaches no coordinate that is not a word. -/
theorem inRange_byte (across : Machine.IsByte x) (down : Machine.IsByte y) (sprite : List UInt8) :
    InRange x y sprite := by
  have limit : Nat.pow 2 (64 - 1) = 9223372036854775808 := rfl
  obtain ⟨left, right⟩ := across
  obtain ⟨top, bottom⟩ := down
  intro row below column near
  have few := (Nat.lt_min.mp below).1
  unfold tallestSprite at few
  simp only [isPosition, Bits.isSigned, Bool.and_eq_true, decide_eq_true_eq, limit]
  omega

/-- A sprite goes around the grid, so its position counts up to the sides only. -/
theorem paints_emod (px py : Nat) :
    Paints width height (x % width) (y % height) sprite px py ↔ Paints width height x y sprite px py := by
  unfold Paints
  simp only [Int.emod_add_emod]

end Display

namespace Machine

open Instruction (byteWord pairWord)
open Display (Paints)

/-- A sprite is on the grid: the pixels under it are turned over and all others are as they were. The flag tells
whether a lit pixel was turned off. No other register has changed and no byte. -/
structure Imprinted (x y : Int) (sprite : List UInt8) (before after : Machine) : Prop where
  size : after.display.SameSize before.display
  pixels : ∀ px py, after.display.pixelAt px py = (before.display.pixelAt px py ^^
    decide (Paints before.display.width before.display.height x y sprite px py))
  marked : before.display.Darkens after.display → after.register flagRegister = 1
  unmarked : ¬ before.display.Darkens after.display → after.register flagRegister = 0
  registers : ∀ place, place ≠ flagRegister → after.register place = before.register place
  bytes : after.memory.bytes = before.memory.bytes

variable {machine : Machine} {a b : Register} {rows : Fin 16}

/-- A sprite in the memory that the grid takes is drawn. -/
theorem draw_taken (low : 0 ≤ machine.index) (stop : machine.index + rows.val ≤ Memory.size) (filled : 0 < rows.val)
    {display : Display} {collision : Bool}
    (goes : machine.display.draw (machine.register a) (machine.register b)
      (machine.memory.readEach machine.index rows.val).value = .ok (display, collision)) :
    let read := machine.memory.readEach machine.index rows.val
    machine.draw a b rows =
      ⟨{ { machine with memory := read.memory }.setRegister flagRegister (flag collision) with
          display := display
          redraw := true }, .ok .applied, read.notes.map .memory⟩ := by
  have present : ¬ (rows.val == 0) = true := by simpa using Nat.ne_of_gt filled
  unfold draw
  rw [if_neg present, if_neg (Int.not_lt.mpr stop), Memory.readRange_inside machine.memory low stop]
  dsimp only [Memory.Reply.map]
  rw [goes]

/-- A sprite in the memory is drawn on every grid that is not smaller. -/
theorem draw_imprints (valid : machine.WellFormed) (stop : machine.index + rows.val ≤ Memory.size)
    (filled : 0 < rows.val) (wide : 8 ≤ machine.display.width) (high : rows.val ≤ machine.display.height) :
    (machine.draw a b rows).result = .ok .applied ∧
      Imprinted (machine.register a) (machine.register b) (machine.memory.readEach machine.index rows.val).value
        machine (machine.draw a b rows).machine := by
  have within := Display.inRange_byte (valid.registers a) (valid.registers b)
    (machine.memory.readEach machine.index rows.val).value
  have count : (machine.memory.readEach machine.index rows.val).value.length = rows.val :=
    machine.memory.readEach_length machine.index rows.val
  have same := machine.memory.readEach_sameContents machine.index rows.val
  have wider : 0 < machine.display.width := by omega
  have higher : 0 < machine.display.height := by omega
  have taken := draw_taken valid.index.1 stop filled (Display.draw_eq within fun _ => ⟨wider, higher⟩)
  have inside := @Display.spriteCells_inside _ _ (machine.register a) (machine.register b)
    (machine.memory.readEach machine.index rows.val).value wider fun _ => higher
  have apart := Display.spriteCells_apart within wide
    (Nat.le_trans (Nat.min_le_right _ _) (Nat.le_trans (Nat.le_of_eq count) high))
  have met := Display.meets_iff apart inside
  rw [taken]
  refine ⟨rfl, Display.turn_sameSize _ _, fun px py => ?_, fun dark => ?_, fun light => ?_,
    fun place other => ?_, same.bytes⟩
  · rw [Display.turn_pixelAt inside]
    congr 1
    rw [Bool.eq_iff_iff, Display.mask_iff apart, decide_eq_true_iff,
      Display.turned_iff_paints within wider fun _ => higher]
  · refine (register_setRegister _ flagRegister flagRegister _).trans ?_
    rw [if_pos rfl, met.mpr dark]
    rfl
  · refine (register_setRegister _ flagRegister flagRegister _).trans ?_
    rw [if_pos rfl, Bool.eq_false_iff.mpr fun meets => light (met.mp meets)]
    rfl
  · exact (register_setRegister _ flagRegister place _).trans (if_neg (Ne.symm other))

theorem perform_findGlyph (machine : Machine) (x : Register) :
    machine.perform (byteWord 0xf x 0x29) = applied (machine.findGlyph x) :=
  machine.perform_spelled (Instruction.spells_findGlyph x)

theorem perform_draw (machine : Machine) (a b : Register) (rows : Fin 16) :
    machine.perform (pairWord 0xd a b rows) = machine.draw a b rows :=
  machine.perform_spelled (Instruction.spells_draw a b rows)

/-- On every machine that a host can get, with a grid that is not smaller than a glyph, the glyph of the last digit of a
register is found and drawn. Its corner is where two registers say, counted around the grid. -/
theorem glyph_drawn (reached : Reachable machine) (wide : 8 ≤ machine.display.width)
    (high : 5 ≤ machine.display.height) (x a b : Register) :
    let found := machine.perform (byteWord 0xf x 0x29)
    let drawn := found.machine.perform (pairWord 0xd a b 0x5)
    found.result = .ok .applied ∧ drawn.result = .ok .applied ∧
      Imprinted (machine.register a % machine.display.width) (machine.register b % machine.display.height)
        (Memory.glyph (machine.register x % 16).toNat) machine drawn.machine := by
  intro found drawn
  have valid := reached.wellFormed
  obtain ⟨digit, small, same⟩ : ∃ digit : Nat, digit < 16 ∧ machine.register x % 16 = digit :=
    ⟨(machine.register x % 16).toNat, by omega, by omega⟩
  have finds : found = applied { machine with index := Memory.glyphAddress digit } := by
    rw [← same]
    exact machine.perform_findGlyph x
  have place := glyphAddress_inside (Int.natCast_nonneg digit) (show (digit : Int) ≤ 15 by omega)
  have ready : { machine with index := Memory.glyphAddress digit }.WellFormed :=
    { valid with index := ⟨by dsimp only; omega, by dsimp only; omega⟩ }
  obtain ⟨applies, imprint⟩ := @draw_imprints _ a b 5 ready
    (Int.le_trans place.2 (by decide)) (by decide) wide high
  have draws : drawn = { machine with index := Memory.glyphAddress digit }.draw a b 5 := by
    change found.machine.perform (pairWord 0xd a b (5 : Fin 16)) = _
    rw [finds]
    exact perform_draw _ a b 5
  have rows : (machine.memory.readEach (Memory.glyphAddress digit) 5).value = Memory.glyph digit :=
    reached.guarded.held.readEach small
  change Imprinted _ _ (machine.memory.readEach (Memory.glyphAddress digit) 5).value _ _ at imprint
  rw [rows] at imprint
  rw [finds, draws, same, Int.toNat_natCast]
  refine ⟨rfl, applies, { imprint with pixels := fun px py => ?_ }⟩
  simp only [Display.paints_emod]
  exact imprint.pixels px py

/-- A machine that faces a word for a register has the value there after a cycle, and shows the same. -/
theorem Faces.puts {word : Int} (faces : machine.Faces word) (covers : (Opcode.family 0x6).Covers word) :
    machine.cycle.machine.register (Instruction.xOf word) = (Instruction.lowByte word).val ∧
      machine.cycle.machine.display = machine.display := by
  obtain ⟨memory, -, goes⟩ := faces.applies (.put covers)
  rw [(goes _ rfl faces.few).2]
  exact ⟨(register_setRegister _ _ _ _).trans (if_pos rfl), rfl⟩

theorem load_display (machine : Machine) {program : Option (List UInt8)}
    (taken : (Request.load program).renews = true) :
    (machine.load program).machine.display = machine.display.clear := by
  rw [machine.load_taken taken]
  rfl

/-- A program of one word, which puts a value into the flag register, is loaded and run. -/
def flagPut : List Request := [.load (some [0x6f, 0x2b]), .cycle]

theorem flagPut_faces (machine : Machine) : (machine.load (some [0x6f, 0x2b])).machine.Faces 0x6f2b :=
  machine.load_faces (by decide) (by decide)

theorem register_flagPut (machine : Machine) : (machine.serveAll flagPut).register 0xf = 0x2b := by
  rw [flagPut, serveAll_load_cycle]
  exact (machine.flagPut_faces.puts (by decide)).1

theorem display_flagPut (machine : Machine) : (machine.serveAll flagPut).display = machine.display.clear := by
  rw [flagPut, serveAll_load_cycle]
  exact (machine.flagPut_faces.puts (by decide)).2.trans (machine.load_display (by decide))

/-- The flag register alone says which glyph is drawn and where: that of 0xb, from the fourth column and the fourth row
on, and so around the lower edge. No lit pixel is turned off, which takes the value away. -/
theorem glyph_drawn_around :
    let machine := (Machine.new (.blank 8 5) (.ofSeed 12345)).serveAll flagPut
    let drawn := (machine.perform 0xff29).machine.perform 0xdff5
    Reachable machine ∧ 8 ≤ machine.display.width ∧ 5 ≤ machine.display.height ∧
      machine.register 0xf = 0x2b ∧ drawn.result = .ok .applied ∧ drawn.machine.register 0xf = 0 ∧
      drawn.machine.display.pixelAt 5 3 = true ∧ drawn.machine.display.pixelAt 5 4 = false ∧
      drawn.machine.display.pixelAt 5 0 = true ∧ drawn.machine.display.pixelAt 2 3 = false := by
  intro machine drawn
  have reached : Reachable machine := Reachable.serveAll (.new _ _ (by decide) (by decide)) flagPut
  have position : machine.register 0xf = 0x2b := register_flagPut _
  have shown : machine.display = (Display.blank 8 5).clear := display_flagPut _
  clear_value machine
  have wide : 8 ≤ machine.display.width := by
    rw [shown]
    decide
  have high : 5 ≤ machine.display.height := by
    rw [shown]
    decide
  obtain ⟨-, applies, imprint⟩ := glyph_drawn reached wide high 0xf 0xf 0xf
  have pixels := imprint.pixels
  have unmarked := imprint.unmarked
  rw [shown] at pixels unmarked
  rw [position] at pixels
  refine ⟨reached, wide, high, position, applies, unmarked ?_, ?_⟩
  · rintro ⟨px, py, lit, -⟩
    rw [Display.clear_pixelAt] at lit
    cases lit
  · refine ⟨(pixels 5 3).trans ?_, (pixels 5 4).trans ?_, (pixels 5 0).trans ?_, (pixels 2 3).trans ?_⟩
    all_goals decide

end Machine

end ChipEight
