/-
This file reads a keypad off the log of what was done with it. A key is down if its last stroke since the keypad
was cleared put it down. The latch holds the key that was pressed last since the keypad was cleared or the latch was
taken. Strokes of codes that have no key can be left out of the log.
-/

import ChipEight.Keypad
import Mathlib.Data.List.DropRight
import Mathlib.Data.List.Induction

namespace ChipEight.Keypad

variable {code : Int}

/-! ### One stroke -/

/-- A code is that of one of the sixteen keys, or of none. -/
theorem key?_cases (code : Int) :
    (∃ key : Fin 16, code = key.val ∧ key? code = some key) ∨
      ¬(0 ≤ code ∧ code ≤ 15) ∧ key? code = none := by
  unfold key?
  by_cases inside : 0 ≤ code ∧ code < 16
  · exact .inl ⟨⟨code.toNat, by omega⟩, (Int.toNat_of_nonneg inside.1).symm, dif_pos inside⟩
  · exact .inr ⟨by omega, dif_neg inside⟩

theorem key?_outside (outside : ¬(0 ≤ code ∧ code ≤ 15)) : key? code = none := by
  rcases key?_cases code with ⟨key, rfl, -⟩ | ⟨-, missing⟩
  · exact absurd ⟨by omega, by omega⟩ outside
  · exact missing

theorem press_outside (keypad : Keypad) (outside : ¬(0 ≤ code ∧ code ≤ 15)) : keypad.press code = keypad := by
  rw [press, key?_outside outside]

theorem release_outside (keypad : Keypad) (outside : ¬(0 ≤ code ∧ code ≤ 15)) : keypad.release code = keypad := by
  rw [release, key?_outside outside]

theorem isDown_outside (keypad : Keypad) (outside : ¬(0 ≤ code ∧ code ≤ 15)) : keypad.isDown code = false := by
  rw [isDown, key?_outside outside]

theorem initial_isDown (code : Int) : initial.isDown code = false := by
  unfold isDown
  split
  · exact Vector.getElem_replicate _
  · rfl

/-- A key that is turned is as it was turned, and the other keys are as they were. -/
theorem turned_isDown (keypad : Keypad) (key : Fin 16) (down : Bool) (latch : Option (Fin 16)) (code : Int) :
    isDown ⟨keypad.down.set key.val down key.isLt, latch⟩ code =
      if code = key.val then down else keypad.isDown code := by
  unfold isDown
  rcases key?_cases code with ⟨other, rfl, found⟩ | ⟨outside, missing⟩
  · rw [found]
    change (keypad.down.set key.val down key.isLt)[other.val] = _
    rw [Vector.getElem_set]
    have same : key.val = other.val ↔ (other.val : Int) = key.val := by omega
    simp only [same]
    rfl
  · rw [missing, if_neg (by omega)]

theorem press_isDown (keypad : Keypad) (pressed code : Int) :
    (keypad.press pressed).isDown code =
      if code = pressed then decide (0 ≤ code ∧ code ≤ 15) else keypad.isDown code := by
  rcases key?_cases pressed with ⟨key, rfl, found⟩ | ⟨outside, -⟩
  · rw [press, found]
    change isDown ⟨keypad.down.set key.val true key.isLt, some key⟩ code = _
    rw [turned_isDown]
    split
    · exact (decide_eq_true (by omega)).symm
    · rfl
  · rw [press_outside keypad outside]
    split
    case isTrue same => rw [same, isDown_outside keypad outside, decide_eq_false outside]
    case isFalse => rfl

theorem release_isDown (keypad : Keypad) (released code : Int) :
    (keypad.release released).isDown code = if code = released then false else keypad.isDown code := by
  rcases key?_cases released with ⟨key, rfl, found⟩ | ⟨outside, -⟩
  · rw [release, found]
    exact turned_isDown keypad key false keypad.latch code
  · rw [release_outside keypad outside]
    split
    case isTrue same => rw [same, isDown_outside keypad outside]
    case isFalse => rfl

theorem press_latch (keypad : Keypad) (code : Int) : (keypad.press code).latch = (key? code).or keypad.latch := by
  unfold press
  cases key? code <;> rfl

theorem release_latch (keypad : Keypad) (code : Int) : (keypad.release code).latch = keypad.latch := by
  unfold release
  cases key? code <;> rfl

/-! ### One event after another -/

/-- What is done with a keypad: keys go down and up, the latch is taken, or all is cleared. -/
inductive Event where
  | press (code : Int)
  | release (code : Int)
  | take
  | clear
  deriving DecidableEq, Repr

namespace Event

def on (keypad : Keypad) : Event → Keypad
  | press code => keypad.press code
  | release code => keypad.release code
  | take => keypad.takeLatch
  | clear => .initial

/-- The event puts the key of a code down or lets it go. -/
def turns (code : Int) (event : Event) : Bool :=
  event = press code || event = release code

/-- The event puts a key down that there is. -/
def presses : Event → Bool
  | press code => 0 ≤ code && code ≤ 15
  | _ => false

/-- The event leaves the latch empty. -/
def empties : Event → Bool
  | take => true
  | clear => true
  | _ => false

theorem presses_iff (code : Int) : (press code).presses = true ↔ 0 ≤ code ∧ code ≤ 15 := by
  simp [presses]

end Event

/-- The keypad after what was done with a new one. -/
def after (log : List Event) : Keypad :=
  log.foldl Event.on .initial

/-- The last event that counts, of those since the last one that ends what was before. -/
def lastSince (ends counts : Event → Bool) (log : List Event) : Option Event :=
  ((log.rtakeWhile fun event => !ends event).filter counts).getLast?

/-- The last stroke of the key of a code since the keypad was cleared. -/
def lastStroke (code : Int) (log : List Event) : Option Event :=
  lastSince (· = .clear) (Event.turns code) log

/-- The last press of a key since the keypad was cleared or the latch was taken. -/
def lastPress (log : List Event) : Option Event :=
  lastSince Event.empties Event.presses log

theorem after_snoc (log : List Event) (event : Event) : after (log ++ [event]) = event.on (after log) := by
  rw [after, List.foldl_append]
  rfl

theorem lastSince_snoc (ends counts : Event → Bool) (log : List Event) (event : Event) :
    lastSince ends counts (log ++ [event]) =
      if ends event then none else if counts event then some event else lastSince ends counts log := by
  unfold lastSince
  cases ended : ends event with
  | true => simp [ended]
  | false => cases counted : counts event <;> simp [ended, counted]

theorem lastStroke_snoc (code : Int) (log : List Event) (event : Event) :
    lastStroke code (log ++ [event]) =
      if event = .clear then none else if event.turns code then some event else lastStroke code log := by
  rw [lastStroke, lastSince_snoc]
  simp only [decide_eq_true_eq]
  rfl

theorem lastPress_snoc (log : List Event) (event : Event) :
    lastPress (log ++ [event]) =
      if event.empties then none else if event.presses then some event else lastPress log :=
  lastSince_snoc Event.empties Event.presses log event

/-- The keypad is as its log says. -/
structure Follows (keypad : Keypad) (log : List Event) : Prop where
  down : ∀ code, keypad.isDown code = true ↔
    (0 ≤ code ∧ code ≤ 15) ∧ lastStroke code log = some (.press code)
  latch : lastPress log = keypad.latch.map fun key => .press key.val

theorem initial_follows : Follows .initial [] :=
  ⟨fun code => by simp [initial_isDown, lastStroke, lastSince], rfl⟩

variable {keypad : Keypad} {log : List Event}

theorem Follows.isDown_on (follows : Follows keypad log) (event : Event) (code : Int) :
    (event.on keypad).isDown code = true ↔
      (0 ≤ code ∧ code ≤ 15) ∧ lastStroke code (log ++ [event]) = some (.press code) := by
  rw [lastStroke_snoc]
  cases event with
  | press pressed =>
      rw [Event.on, press_isDown]
      by_cases same : code = pressed
      · simp [same, Event.turns]
      · simp [same, Ne.symm same, Event.turns, follows.down]
  | release released =>
      rw [Event.on, release_isDown]
      by_cases same : code = released
      · simp [same, Event.turns]
      · simp [same, Ne.symm same, Event.turns, follows.down]
  | take =>
      change keypad.isDown code = true ↔ _
      simp [Event.turns, follows.down]
  | clear => simp [Event.on, initial_isDown]

theorem Follows.latch_on (follows : Follows keypad log) (event : Event) :
    lastPress (log ++ [event]) = (event.on keypad).latch.map fun key => .press key.val := by
  rw [lastPress_snoc]
  cases event with
  | press pressed =>
      rw [Event.on, press_latch]
      rcases key?_cases pressed with ⟨key, rfl, found⟩ | ⟨outside, missing⟩
      · have seen : (Event.press key.val).presses = true := (Event.presses_iff _).mpr (by omega)
        rw [found, if_pos seen]
        rfl
      · have unseen : ¬(Event.press pressed).presses = true := mt (Event.presses_iff _).mp outside
        rw [missing, if_neg unseen]
        exact follows.latch
  | release released =>
      rw [Event.on, release_latch]
      exact follows.latch
  | take => rfl
  | clear => rfl

theorem Follows.on (follows : Follows keypad log) (event : Event) :
    Follows (event.on keypad) (log ++ [event]) :=
  ⟨follows.isDown_on event, follows.latch_on event⟩

theorem after_follows (log : List Event) : Follows (after log) log := by
  -- From the end of the log, as its last event is the first to be asked.
  induction log using List.reverseRecOn with
  | nil => exact initial_follows
  | append_singleton log event ih =>
      rw [after_snoc]
      exact ih.on event

/-- A stroke of a code that has no key may as well be missing. -/
theorem after_stray (log later : List Event) {event : Event} (stray : ∀ keypad, event.on keypad = keypad) :
    after (log ++ event :: later) = after (log ++ later) := by
  rw [after, after, List.foldl_append, List.foldl_append, List.foldl_cons, stray]

/-- However a keypad got where it is, its log tells it all: a key is down if there is one of the code, and the last
stroke of it since the keypad was cleared put it down; taking the latch gives the last press of a key since the keypad
was cleared or the latch was taken, if there was one; and strokes of codes that have no key may as well be missing. -/
theorem log_tells (log : List Event) :
    (∀ code, (after log).isDown code = true ↔
      (0 ≤ code ∧ code ≤ 15) ∧ lastStroke code log = some (.press code)) ∧
    lastPress log = (after log).latch.map (fun key => .press key.val) ∧
    ∀ code, ¬(0 ≤ code ∧ code ≤ 15) → ∀ later,
      after (log ++ .press code :: later) = after (log ++ later) ∧
        after (log ++ .release code :: later) = after (log ++ later) := by
  refine ⟨(after_follows log).down, (after_follows log).latch, fun code outside later => ⟨?_, ?_⟩⟩
  · exact after_stray log later fun keypad => press_outside keypad outside
  · exact after_stray log later fun keypad => release_outside keypad outside

/-- Neither a code that would count from the back nor one past the last key lets go or presses a key. What was
released and cleared is up, and what was taken is not given again. -/
theorem log_tells_mixed :
    let earlier : List Event := [.press 3, .release 3, .clear, .press 5, .press 7, .release 5]
    let later : List Event := [.take, .press 16]
    let keypad := after (earlier ++ .release (-9) :: later)
    keypad.isDown 7 = true ∧ keypad.isDown 5 = false ∧ keypad.latch = none ∧
      ¬(0 ≤ (-9 : Int) ∧ (-9 : Int) ≤ 15) ∧ keypad = after (earlier ++ later) := by
  intro earlier later keypad
  have outside : ¬(0 ≤ (-9 : Int) ∧ (-9 : Int) ≤ 15) := by decide
  obtain ⟨down, latch, -⟩ := log_tells (earlier ++ .release (-9) :: later)
  obtain ⟨-, -, stray⟩ := log_tells earlier
  refine ⟨(down 7).mpr (by decide), ?_, ?_, outside, (stray (-9) outside later).2⟩
  · exact Bool.eq_false_iff.mpr fun pressed => absurd ((down 5).mp pressed) (by decide)
  · exact Option.map_eq_none_iff.mp latch.symm

end ChipEight.Keypad
