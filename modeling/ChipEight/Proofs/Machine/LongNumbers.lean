/-
This file chains operations through the flag. The words for one column of two long numbers pass what is carried or
borrowed on in the flag register, so sums and differences of numbers of any length are exact.
-/

import Mathlib.Tactic.LinearCombination
import ChipEight.Proofs.Machine.Arithmetic

namespace ChipEight.Machine

open Instruction (byteWord)

/-- The machine after some words. -/
def performAll (machine : Machine) : List Int → Machine
  | [] => machine
  | word :: rest => (machine.perform word).machine.performAll rest

theorem performAll_append (machine : Machine) (first second : List Int) :
    machine.performAll (first ++ second) = (machine.performAll first).performAll second := by
  induction first generalizing machine with
  | nil => rfl
  | cons word rest ih => exact ih _

/-- Two registers that hold bytes of the same weight. -/
structure Column where
  x : Register
  y : Register
  deriving DecidableEq, Repr

/-- The number whose bytes are in some registers, the lowest first. -/
def number (machine : Machine) : List Register → Int
  | [] => 0
  | place :: rest => machine.register place + 256 * machine.number rest

theorem number_congr {first second : Machine} {places : List Register}
    (same : ∀ place ∈ places, first.register place = second.register place) :
    first.number places = second.number places := by
  induction places with
  | nil => rfl
  | cons place rest ih =>
      rw [number, number, same place List.mem_cons_self, ih fun later member =>
        same later (List.mem_cons_of_mem place member)]

theorem number_map_congr {first second : Machine} {columns : List Column} {side : Column → Register}
    (same : ∀ column ∈ columns, first.register (side column) = second.register (side column)) :
    first.number (columns.map side) = second.number (columns.map side) := by
  apply number_congr
  intro place inside
  obtain ⟨column, member, rfl⟩ := List.mem_map.mp inside
  exact same column member

/-- The carry is added to the first byte, and then the second byte. The spare register keeps the carry of the first of
these sums until that of the second is there. -/
def additionColumn (spare : Register) (column : Column) : List Int := [
  Operation.add.word column.x flagRegister,
  Operation.copy.word spare flagRegister,
  Operation.add.word column.x column.y,
  Operation.or.word flagRegister spare]

/-- What is borrowed, which is one less the flag, is subtracted from the first byte, and then the second byte. -/
def subtractionColumn (spare : Register) (column : Column) : List Int := [
  byteWord 0x6 spare (1 : Fin 256),
  Operation.subtract.word spare flagRegister,
  Operation.subtract.word column.x spare,
  Operation.copy.word spare flagRegister,
  Operation.subtract.word column.x column.y,
  Operation.and.word flagRegister spare]

/-- The flag is set to what stands for nothing to be passed on, and then the columns are gone through. -/
def throughColumns (start : Fin 256) (words : Column → List Int) (columns : List Column) : List Int :=
  byteWord 0x6 flagRegister start :: columns.flatMap words

/-- The words that add a number to another one. -/
def addition (spare : Register) (columns : List Column) : List Int :=
  throughColumns 0 (additionColumn spare) columns

/-- The words that subtract a number from another one. -/
def subtraction (spare : Register) (columns : List Column) : List Int :=
  throughColumns 1 (subtractionColumn spare) columns

/-- The registers of a column are four different ones with the spare register and the flag register. -/
structure Column.Free (spare : Register) (column : Column) : Prop where
  x : column.x ≠ spare ∧ column.x ≠ flagRegister
  y : column.y ≠ spare ∧ column.y ≠ flagRegister
  apart : column.x ≠ column.y

/-- The registers of some columns are free, and the sums of the lower columns spare those of the higher ones. -/
structure Apart (spare : Register) (columns : List Column) : Prop where
  unflagged : spare ≠ flagRegister
  free : ∀ column ∈ columns, column.Free spare
  pairwise : columns.Pairwise fun lower higher => higher.x ≠ lower.x ∧ higher.y ≠ lower.x

/-- What the words for a column do. The sign tells sums from differences, and `start` is the flag that stands for
nothing to be passed on. -/
structure Passes (sign start : Int) (spare : Register) (column : Column) (before after : Machine) : Prop where
  bytes : after.HoldsBytes
  bit : after.register flagRegister = 0 ∨ after.register flagRegister = 1
  total : after.register column.x + 256 * (after.register flagRegister - start) =
    before.register column.x + sign * before.register column.y + (before.register flagRegister - start)
  others : ∀ place, place ≠ column.x → place ≠ spare → place ≠ flagRegister →
    after.register place = before.register place

variable {machine : Machine} {spare : Register} {column : Column} {columns : List Column}

theorem perform_word_machine (machine : Machine) (operation : Operation) (x y : Register) :
    (machine.perform (operation.word x y)).machine = machine.combine operation x y :=
  congrArg Outcome.machine (machine.perform_word operation x y)

theorem perform_put (machine : Machine) (x : Register) (value : Fin 256) :
    machine.perform (byteWord 0x6 x value) = applied (machine.setRegister x value.val) :=
  machine.perform_spelled (Instruction.spells_put x value)

theorem HoldsBytes.setRegister (bytes : machine.HoldsBytes) (x : Register) {value : Int} (byte : IsByte value) :
    (machine.setRegister x value).HoldsBytes := by
  intro place
  rw [register_setRegister]
  split
  · exact byte
  · exact bytes place

/-- Nothing but the flag changes where the flag register is the register of the result. -/
theorem register_combine_flag (machine : Machine) (operation : Operation) (y : Register) {place : Register}
    (other : place ≠ flagRegister) :
    (machine.combine operation flagRegister y).register place = machine.register place := by
  rw [register_combine, if_neg other.symm, if_neg other.symm]

/-- Of two flags that are not both set the one that is set, if any, is their sum. -/
theorem or_flags {first second : Int} (low : first = 0 ∨ first = 1) (high : second = 0 ∨ second = 1)
    (one : first + second = 0 ∨ first + second = 1) : (combined .or second first).2 = first + second := by
  rcases low with rfl | rfl <;> rcases high with rfl | rfl
  · rfl
  · rfl
  · rfl
  · omega

/-- Of two flags that are not both clear the one that may be clear is their sum without the other. -/
theorem and_flags {first second : Int} (low : first = 0 ∨ first = 1) (high : second = 0 ∨ second = 1)
    (one : first + second - 1 = 0 ∨ first + second - 1 = 1) :
    (combined .and second first).2 = first + second - 1 := by
  rcases low with rfl | rfl <;> rcases high with rfl | rfl
  · omega
  · rfl
  · rfl
  · rfl

/-- Both carries of a column are never there at once. -/
theorem additionColumn_passes (bytes : machine.HoldsBytes)
    (bit : machine.register flagRegister = 0 ∨ machine.register flagRegister = 1) (unflagged : spare ≠ flagRegister)
    (free : column.Free spare) :
    Passes 1 0 spare column machine (machine.performAll (additionColumn spare column)) := by
  simp only [additionColumn, performAll, perform_word_machine]
  have carry := combine_computes bytes .add free.x.2 flagRegister
  generalize machine.combine .add column.x flagRegister = first at carry ⊢
  have save := combine_computes carry.bytes .copy unflagged flagRegister
  generalize first.combine .copy spare flagRegister = second at save ⊢
  have sum := combine_computes save.bytes .add free.x.2 column.y
  generalize second.combine .add column.x column.y = third at sum ⊢
  have carried : first.register column.x + 256 * first.register flagRegister =
      machine.register column.x + machine.register flagRegister := carry.result
  have saved : third.register spare = first.register flagRegister :=
    (sum.others spare free.x.1.symm unflagged).trans save.result
  have summed : third.register column.x + 256 * third.register flagRegister =
      first.register column.x + machine.register column.y := by
    rw [← save.others column.x free.x.1 free.x.2, ← carry.others column.y free.apart.symm free.y.2,
      ← save.others column.y free.y.1 free.y.2]
    exact sum.result
  have carries := carry.flagged (by decide)
  have also := sum.flagged (by decide)
  have one : first.register flagRegister + third.register flagRegister = 0 ∨
      first.register flagRegister + third.register flagRegister = 1 := by
    obtain ⟨-, low⟩ := bytes column.x
    obtain ⟨-, high⟩ := bytes column.y
    obtain ⟨least, -⟩ := sum.bytes column.x
    omega
  have marked : (third.combine .or flagRegister spare).register flagRegister =
      first.register flagRegister + third.register flagRegister := by
    rw [register_combine, if_pos rfl, saved, or_flags carries also one]
  refine ⟨sum.bytes.combine _ _ _, marked ▸ one, ?_, fun place other unspared unmarked => ?_⟩
  · rw [marked, register_combine_flag third .or spare free.x.2]
    linear_combination carried + summed
  · rw [register_combine_flag third .or spare unmarked, sum.others place other unmarked,
      save.others place unspared unmarked, carry.others place other unmarked]

/-- The spare register has what is borrowed once the flag is subtracted from one there. -/
theorem borrowed_spare (bytes : machine.HoldsBytes)
    (bit : machine.register flagRegister = 0 ∨ machine.register flagRegister = 1) (unflagged : spare ≠ flagRegister) :
    let after := (machine.setRegister spare 1).combine .subtract spare flagRegister
    after.HoldsBytes ∧ after.register spare = 1 - machine.register flagRegister ∧
      ∀ place, place ≠ spare → place ≠ flagRegister → after.register place = machine.register place := by
  intro after
  have loaded : (machine.setRegister spare 1).HoldsBytes := bytes.setRegister spare (by decide)
  have kept (place : Register) (other : place ≠ spare) :
      (machine.setRegister spare 1).register place = machine.register place := by
    rw [register_setRegister, if_neg other.symm]
  have borrow := combine_computes loaded .subtract unflagged flagRegister
  have result : after.register spare = (machine.setRegister spare 1).register spare -
      (machine.setRegister spare 1).register flagRegister + 256 * (1 - after.register flagRegister) := borrow.result
  rw [kept flagRegister unflagged.symm, register_setRegister, if_pos rfl] at result
  obtain ⟨least, most⟩ : IsByte (after.register spare) := borrow.bytes spare
  have flags : after.register flagRegister = 0 ∨ after.register flagRegister = 1 := borrow.flagged (by decide)
  refine ⟨borrow.bytes, by omega, fun place unspared unmarked => ?_⟩
  exact (borrow.others place unspared unmarked).trans (kept place unspared)

/-- What is borrowed, and then the second byte, are never both more than the first byte has. -/
theorem subtractionColumn_passes (bytes : machine.HoldsBytes)
    (bit : machine.register flagRegister = 0 ∨ machine.register flagRegister = 1) (unflagged : spare ≠ flagRegister)
    (free : column.Free spare) :
    Passes (-1) 1 spare column machine (machine.performAll (subtractionColumn spare column)) := by
  simp only [subtractionColumn, performAll, perform_word_machine, perform_put, applied]
  rw [show ((1 : Fin 256).val : Int) = 1 from rfl]
  obtain ⟨fits, borrowed, others⟩ := borrowed_spare bytes bit unflagged
  generalize (machine.setRegister spare 1).combine .subtract spare flagRegister = first at fits borrowed others ⊢
  have lend := combine_computes fits .subtract free.x.2 spare
  generalize first.combine .subtract column.x spare = second at lend ⊢
  have save := combine_computes lend.bytes .copy unflagged flagRegister
  generalize second.combine .copy spare flagRegister = third at save ⊢
  have difference := combine_computes save.bytes .subtract free.x.2 column.y
  generalize third.combine .subtract column.x column.y = fourth at difference ⊢
  have lent : second.register column.x = machine.register column.x - first.register spare +
      256 * (1 - second.register flagRegister) := by
    rw [← others column.x free.x.1 free.x.2]
    exact lend.result
  have saved : fourth.register spare = second.register flagRegister :=
    (difference.others spare free.x.1.symm unflagged).trans save.result
  have subtracted : fourth.register column.x = second.register column.x - machine.register column.y +
      256 * (1 - fourth.register flagRegister) := by
    rw [← save.others column.x free.x.1 free.x.2, ← others column.y free.y.1 free.y.2,
      ← lend.others column.y free.apart.symm free.y.2, ← save.others column.y free.y.1 free.y.2]
    exact difference.result
  have lends := lend.flagged (by decide)
  have also := difference.flagged (by decide)
  have one : second.register flagRegister + fourth.register flagRegister - 1 = 0 ∨
      second.register flagRegister + fourth.register flagRegister - 1 = 1 := by
    obtain ⟨least, -⟩ := bytes column.x
    obtain ⟨-, high⟩ := bytes column.y
    obtain ⟨-, most⟩ := difference.bytes column.x
    omega
  have marked : (fourth.combine .and flagRegister spare).register flagRegister =
      second.register flagRegister + fourth.register flagRegister - 1 := by
    rw [register_combine, if_pos rfl, saved, and_flags lends also one]
  refine ⟨difference.bytes.combine _ _ _, marked ▸ one, ?_, fun place other unspared unmarked => ?_⟩
  · rw [marked, register_combine_flag fourth .and spare free.x.2]
    linear_combination subtracted + lent - borrowed
  · rw [register_combine_flag fourth .and spare unmarked, difference.others place other unmarked,
      save.others place unspared unmarked, lend.others place other unmarked, others place unspared unmarked]

theorem Apart.tail (apart : Apart spare (column :: columns)) : Apart spare columns :=
  ⟨apart.unflagged, fun other member => apart.free other (List.mem_cons_of_mem column member),
    (List.pairwise_cons.mp apart.pairwise).2⟩

/-- What the words for each column do, the words for all columns do to the whole numbers. -/
theorem columns_total {sign start : Int} {words : Column → List Int} (apart : Apart spare columns)
    (passes : ∀ (machine : Machine) (column : Column), machine.HoldsBytes →
      (machine.register flagRegister = 0 ∨ machine.register flagRegister = 1) → column.Free spare →
      Passes sign start spare column machine (machine.performAll (words column)))
    (bytes : machine.HoldsBytes) (bit : machine.register flagRegister = 0 ∨ machine.register flagRegister = 1) :
    let after := machine.performAll (columns.flatMap words)
    after.HoldsBytes ∧ (after.register flagRegister = 0 ∨ after.register flagRegister = 1) ∧
    after.number (columns.map Column.x) + 256 ^ columns.length * (after.register flagRegister - start) =
      machine.number (columns.map Column.x) + sign * machine.number (columns.map Column.y) +
        (machine.register flagRegister - start) ∧
    ∀ place, (∀ column ∈ columns, place ≠ column.x) → place ≠ spare → place ≠ flagRegister →
      after.register place = machine.register place := by
  induction columns generalizing machine with
  | nil =>
      refine ⟨bytes, bit, ?_, fun _ _ _ _ => rfl⟩
      simp [performAll, number]
  | cons column rest ih =>
      have free := apart.free column List.mem_cons_self
      have spared := (List.pairwise_cons.mp apart.pairwise).1
      have member {other : Column} (later : other ∈ rest) := apart.free other (List.mem_cons_of_mem column later)
      have first := passes machine column bytes bit free
      rw [List.flatMap_cons, performAll_append]
      generalize machine.performAll (words column) = middle at first ⊢
      obtain ⟨fits, last, total, others⟩ := ih apart.tail first.bytes first.bit
      generalize middle.performAll (rest.flatMap words) = after at fits last total others ⊢
      refine ⟨fits, last, ?_, fun place apart unspared unmarked => ?_⟩
      · have firsts : middle.number (rest.map Column.x) = machine.number (rest.map Column.x) :=
          number_map_congr fun other later =>
            first.others other.x (spared other later).1 (member later).x.1 (member later).x.2
        have seconds : middle.number (rest.map Column.y) = machine.number (rest.map Column.y) :=
          number_map_congr fun other later =>
            first.others other.y (spared other later).2 (member later).y.1 (member later).y.2
        have lowest : after.register column.x = middle.register column.x :=
          others column.x (fun other later => (spared other later).1.symm) free.x.1 free.x.2
        rw [firsts, seconds] at total
        simp only [List.map_cons, number, List.length_cons, pow_succ, lowest]
        linear_combination first.total + 256 * total
      · rw [others place (fun other later => apart other (List.mem_cons_of_mem column later)) unspared unmarked,
          first.others place (apart column List.mem_cons_self) unspared unmarked]

theorem throughColumns_total {sign : Int} {start : Fin 256} {words : Column → List Int} (apart : Apart spare columns)
    (bit : (start.val : Int) = 0 ∨ (start.val : Int) = 1)
    (passes : ∀ (machine : Machine) (column : Column), machine.HoldsBytes →
      (machine.register flagRegister = 0 ∨ machine.register flagRegister = 1) → column.Free spare →
      Passes sign start.val spare column machine (machine.performAll (words column)))
    (bytes : machine.HoldsBytes) :
    let after := machine.performAll (throughColumns start words columns)
    after.HoldsBytes ∧ (after.register flagRegister = 0 ∨ after.register flagRegister = 1) ∧
    after.number (columns.map Column.x) + 256 ^ columns.length * (after.register flagRegister - start.val) =
      machine.number (columns.map Column.x) + sign * machine.number (columns.map Column.y) := by
  have marked : (machine.setRegister flagRegister start.val).register flagRegister = start.val := by
    rw [register_setRegister, if_pos rfl]
  have kept {side : Column → Register} (unmarked : ∀ column ∈ columns, side column ≠ flagRegister) :
      (machine.setRegister flagRegister start.val).number (columns.map side) = machine.number (columns.map side) :=
    number_map_congr fun column member => by rw [register_setRegister, if_neg (unmarked column member).symm]
  have begun : (machine.setRegister flagRegister start.val).HoldsBytes :=
    bytes.setRegister flagRegister (isByte_nat start.isLt)
  obtain ⟨fits, last, total, -⟩ := columns_total apart passes begun (marked.symm ▸ bit)
  intro after
  have goes : after = (machine.setRegister flagRegister start.val).performAll (columns.flatMap words) := by
    change (machine.perform _).machine.performAll _ = _
    rw [perform_put]
    rfl
  rw [← goes, marked, kept fun column member => (apart.free column member).x.2,
    kept fun column member => (apart.free column member).y.2, Int.sub_self, Int.add_zero] at total
  exact ⟨goes ▸ fits, goes ▸ last, total⟩

theorem addition_total (apart : Apart spare columns) (bytes : machine.HoldsBytes) :
    let after := machine.performAll (addition spare columns)
    after.HoldsBytes ∧ (after.register flagRegister = 0 ∨ after.register flagRegister = 1) ∧
    after.number (columns.map Column.x) + 256 ^ columns.length * after.register flagRegister =
      machine.number (columns.map Column.x) + machine.number (columns.map Column.y) := by
  obtain ⟨fits, last, total⟩ := @throughColumns_total machine spare columns 1 0 (additionColumn spare) apart (.inl rfl)
    (fun machine column bytes bit free => additionColumn_passes bytes bit apart.unflagged free) bytes
  refine ⟨fits, last, ?_⟩
  change _ + _ * ((machine.performAll (addition spare columns)).register flagRegister - 0) = _ at total
  rw [Int.sub_zero, Int.one_mul] at total
  exact total

theorem subtraction_total (apart : Apart spare columns) (bytes : machine.HoldsBytes) :
    let after := machine.performAll (subtraction spare columns)
    after.HoldsBytes ∧ (after.register flagRegister = 0 ∨ after.register flagRegister = 1) ∧
    after.number (columns.map Column.x) = machine.number (columns.map Column.x) -
      machine.number (columns.map Column.y) + 256 ^ columns.length * (1 - after.register flagRegister) := by
  obtain ⟨fits, last, total⟩ := @throughColumns_total machine spare columns (-1) 1 (subtractionColumn spare) apart
    (.inr rfl) (fun machine column bytes bit free => subtractionColumn_passes bytes bit apart.unflagged free) bytes
  refine ⟨fits, last, ?_⟩
  change (machine.performAll (subtraction spare columns)).number _ +
    _ * ((machine.performAll (subtraction spare columns)).register flagRegister - 1) = _ at total
  linear_combination total

theorem perform_add (machine : Machine) (x : Register) (value : Fin 256) :
    machine.perform (byteWord 0x7 x value) =
      applied (machine.setRegister x (lowByte (machine.register x + value.val))) :=
  machine.perform_spelled (Instruction.spells_add x value)

/-- Of any registers with bytes, where the result is not put into the flag register: each operation is applied, its
result is a byte and with the flag exact in the values before, operations that write no flag leave it alone, and so
does the sum with a byte of a word; other registers stay. So the sums and differences of long numbers that are chained
through the flag are exact, whatever their length. -/
theorem arithmetic_exact (bytes : machine.HoldsBytes) :
    (∀ (operation : Operation) (x y : Register), x ≠ flagRegister →
      let performed := machine.perform (operation.word x y)
      performed.result = .ok .applied ∧ Computes operation x y machine performed.machine) ∧
    (∀ (x : Register) (value : Fin 256),
      let performed := machine.perform (byteWord 0x7 x value)
      performed.result = .ok .applied ∧
      performed.machine.register x = (machine.register x + value.val) % 256 ∧ performed.machine.HoldsBytes ∧
      ∀ place, place ≠ x → performed.machine.register place = machine.register place) ∧
    ∀ (spare : Register) (columns : List Column), Apart spare columns →
      let sum := machine.performAll (addition spare columns)
      let difference := machine.performAll (subtraction spare columns)
      let firsts := columns.map Column.x
      let seconds := columns.map Column.y
      sum.HoldsBytes ∧ (sum.register flagRegister = 0 ∨ sum.register flagRegister = 1) ∧
      sum.number firsts + 256 ^ columns.length * sum.register flagRegister =
        machine.number firsts + machine.number seconds ∧
      difference.HoldsBytes ∧ (difference.register flagRegister = 0 ∨ difference.register flagRegister = 1) ∧
      difference.number firsts = machine.number firsts - machine.number seconds +
        256 ^ columns.length * (1 - difference.register flagRegister) := by
  refine ⟨fun operation x y other => ?_, fun x value => ?_, fun spare columns apart => ?_⟩
  · intro performed
    have goes : performed = applied (machine.combine operation x y) := machine.perform_word operation x y
    rw [goes]
    exact ⟨rfl, combine_computes bytes operation other y⟩
  · intro performed
    have goes : performed = applied (machine.setRegister x (lowByte (machine.register x + value.val))) :=
      machine.perform_add x value
    rw [goes]
    refine ⟨rfl, ?_, bytes.setRegister x (isByte_lowByte _), fun place other => ?_⟩
    · exact (register_setRegister _ _ _ _).trans (if_pos rfl)
    · exact (register_setRegister _ _ _ _).trans (if_neg other.symm)
  · obtain ⟨sumBytes, carries, sum⟩ := addition_total apart bytes
    obtain ⟨differenceBytes, borrows, difference⟩ := subtraction_total apart bytes
    exact ⟨sumBytes, carries, sum, differenceBytes, borrows, difference⟩

/-- A new machine that has put 0x12ff into the first two registers and 0xff01 into the next two. -/
def numberLaden : Machine :=
  (new (.blank 8 4) (.ofSeed 12345)).performAll [0x60ff, 0x6112, 0x6201, 0x63ff]

/-- The sum of both numbers has no room in two bytes, and their difference borrows. -/
theorem arithmetic_exact_two :
    let columns : List Column := [⟨0x0, 0x2⟩, ⟨0x1, 0x3⟩]
    let sum := numberLaden.performAll (addition 0x4 columns)
    let difference := numberLaden.performAll (subtraction 0x4 columns)
    numberLaden.HoldsBytes ∧ Apart 0x4 columns ∧
      sum.number [0x0, 0x1] = 0x1200 ∧ sum.register flagRegister = 1 ∧
      difference.number [0x0, 0x1] = 0x13fe ∧ difference.register flagRegister = 0 := by
  intro columns sum difference
  have bytes : numberLaden.HoldsBytes := by decide
  have apart : Apart 0x4 columns := by
    refine ⟨by decide, fun column member => ?_, by decide⟩
    simp only [columns, List.mem_cons, List.not_mem_nil, or_false] at member
    rcases member with rfl | rfl
    · exact ⟨by decide, by decide, by decide⟩
    · exact ⟨by decide, by decide, by decide⟩
  have first : numberLaden.number [0x0, 0x1] = 0x12ff := rfl
  have second : numberLaden.number [0x2, 0x3] = 0xff01 := rfl
  obtain ⟨-, -, long⟩ := arithmetic_exact bytes
  have chained := long 0x4 columns apart
  change sum.HoldsBytes ∧ (sum.register flagRegister = 0 ∨ sum.register flagRegister = 1) ∧
    sum.number [0x0, 0x1] + 256 ^ 2 * sum.register flagRegister =
      numberLaden.number [0x0, 0x1] + numberLaden.number [0x2, 0x3] ∧
    difference.HoldsBytes ∧ (difference.register flagRegister = 0 ∨ difference.register flagRegister = 1) ∧
    difference.number [0x0, 0x1] = numberLaden.number [0x0, 0x1] - numberLaden.number [0x2, 0x3] +
      256 ^ 2 * (1 - difference.register flagRegister) at chained
  obtain ⟨sumBytes, carries, total, restBytes, borrows, rest⟩ := chained
  obtain ⟨sumLow, sumHigh⟩ := And.intro (sumBytes 0x0) (sumBytes 0x1)
  obtain ⟨restLow, restHigh⟩ := And.intro (restBytes 0x0) (restBytes 0x1)
  rw [first, second] at total rest
  simp only [number, IsByte] at sumLow sumHigh restLow restHigh total rest ⊢
  exact ⟨bytes, apart, by omega⟩

end ChipEight.Machine
