/-
This file says when a host is told to redraw the display. Whatever changes the display raises the flag
for it but a reset, which takes the flag back; so a host that asks after a reset may be left with an
old picture.
-/

import ChipEight.Proofs.Machine.Execution
import ChipEight.Proofs.Machine.Frame
import ChipEight.Session

namespace ChipEight

namespace Machine

/-- The machine after asks to be redrawn, or it asks for no more than the one before and has the same
display. -/
def KeepsScreen (before after : Machine) : Prop :=
  after.redraw = true ∨ after.display = before.display ∧ after.redraw = before.redraw

variable {machine : Machine}

theorem KeepsScreen.refl (machine : Machine) : machine.KeepsScreen machine :=
  .inr ⟨rfl, rfl⟩

theorem KeepsScreen.trans {first second third : Machine} (start : first.KeepsScreen second)
    (next : second.KeepsScreen third) : first.KeepsScreen third := by
  rcases next with raised | ⟨display, redraw⟩
  · exact .inl raised
  rcases start with raised | ⟨before, asked⟩
  · exact .inl (redraw.trans raised)
  · exact .inr ⟨display.trans before, redraw.trans asked⟩

theorem draw_keepsScreen (machine : Machine) (x y : Register) (rows : Fin 16) :
    machine.KeepsScreen (machine.draw x y rows).machine := by
  unfold draw
  split
  case isTrue => exact .refl machine
  split
  case isTrue => exact .inr ⟨rfl, rfl⟩
  case isFalse =>
    dsimp only
    split
    case h_1 => exact .inr ⟨rfl, rfl⟩
    case h_2 =>
      split
      case h_1 => exact .inr ⟨rfl, rfl⟩
      case h_2 => exact .inl rfl

/-- Of all words just two change the display, and both ask to redraw it. -/
theorem perform_keepsScreen (machine : Machine) (word : Int) :
    machine.KeepsScreen (machine.perform word).machine := by
  by_cases clears : (Opcode.whole 0x00e0).Covers word
  · rw [machine.perform_spelled (.clearScreen clears)]
    exact .inl rfl
  by_cases draws : (Opcode.family 0xd).Covers word
  · rw [machine.perform_spelled (.draw draws)]
    exact machine.draw_keepsScreen _ _ _
  · have unnamed : ¬ Opcode.Listed [.whole 0x00e0, .family 0xd] word := by
      simp only [Opcode.Listed, List.mem_cons, List.not_mem_nil, or_false, exists_eq_or_imp,
        exists_eq_left, not_or]
      exact ⟨clears, draws⟩
    exact .inr ((machine.perform_confined word).screen unnamed)

theorem advance_keepsScreen (machine : Machine)
    (allowed : isProgramAddress machine.counter = true) :
    machine.KeepsScreen machine.advance.machine := by
  obtain ⟨memory, notes, -, -, -, loads⟩ := machine.loaded_eq allowed
  have fetched : machine.KeepsScreen machine.loaded := by
    rw [loads]
    exact .inr ⟨rfl, rfl⟩
  have performs : machine.KeepsScreen machine.performed.machine :=
    fetched.trans (machine.loaded.perform_keepsScreen machine.fetch.result)
  rcases machine.advance_cases with ⟨fault, -, goes⟩ | ⟨status, place, word, -, goes⟩
  · rw [goes]
    exact performs
  · rw [goes]
    dsimp only
    rw [checkErrors_machine]
    exact performs

theorem cycle_keepsScreen (machine : Machine) : machine.KeepsScreen machine.cycle.machine := by
  rcases machine.cycle_cases with ⟨-, goes⟩ | ⟨-, -, goes⟩ | ⟨-, -, complaint, -, goes⟩ |
    ⟨-, -, allowed, goes⟩
  · rw [goes]
    exact .inr ⟨rfl, rfl⟩
  · rw [goes]
    exact .inr ⟨rfl, rfl⟩
  · rw [goes, correct_machine]
    exact .inr ⟨rfl, rfl⟩
  · rw [goes]
    exact machine.begun.advance_keepsScreen allowed

/-- A program that is taken clears the display, and asks to redraw it. -/
theorem load_keepsScreen (machine : Machine) (program : Option (List UInt8)) :
    machine.KeepsScreen (machine.load program).machine := by
  by_cases taken : (Request.load program).renews = true
  · rw [machine.load_taken taken]
    exact .inl rfl
  · rw [machine.load_refused (Bool.not_eq_true _ ▸ taken)]
    exact .refl machine

end Machine

namespace Session

/-- What a host does with a session. -/
inductive Action where
  | load (program : Option (List UInt8))
  | reset
  | start
  | stop
  | press (code : Int)
  | release (code : Int)
  | cycle
  | runFrame
  | consumeRedraw
  deriving DecidableEq, Repr

/-- The session after an action, whether or not the action ends with a fault. -/
def act (session : Session) : Action → Session
  | .load program => (session.load program).session
  | .reset => session.reset
  | .start => session.start
  | .stop => session.stop
  | .press code => session.press code
  | .release code => session.release code
  | .cycle => session.cycle.session
  | .runFrame => session.runFrame.session
  | .consumeRedraw => session.consumeRedraw.2

def actAll (session : Session) : List Action → Session
  | [] => session
  | action :: rest => (session.act action).actAll rest

/-- What a host has seen: the display when it last asked whether to redraw it, and what it has done
since. -/
structure Watch where
  seen : Display
  since : List Action

/-- What a host has seen after an action. -/
def Watch.after (watch : Watch) (session : Session) : Action → Watch
  | .consumeRedraw => ⟨session.machine.display, []⟩
  | action => ⟨watch.seen, watch.since ++ [action]⟩

def Watch.afterAll (watch : Watch) (session : Session) : List Action → Watch
  | [] => watch
  | action :: rest => (watch.after session action).afterAll (session.act action) rest

/-- What the host of a session has seen that begins to watch it. -/
def watched (session : Session) : Watch := ⟨session.machine.display, []⟩

variable {session : Session}

/-- A record is made of the machine and leaves it alone. -/
theorem recorded_machine (session : Session) : session.recorded.1.machine = session.machine := by
  unfold recorded
  split <;> rfl

theorem advance_machine (session : Session) :
    session.advance.session.machine = session.machine.cycle.machine := by
  unfold advance
  dsimp only
  split
  · rfl
  · exact recorded_machine _

theorem cycle_keepsScreen (session : Session) :
    session.machine.KeepsScreen session.cycle.session.machine := by
  unfold cycle
  split
  · rw [session.advance_machine]
    exact session.machine.cycle_keepsScreen
  · exact .refl _

/-- Actions one after another keep what each of them keeps. -/
theorem Turnout.andThen_keepsScreen {A B : Type} {first : Turnout A}
    {next : Session → A → Turnout B} (start : session.machine.KeepsScreen first.session.machine)
    (others : ∀ value, first.session.machine.KeepsScreen (next first.session value).session.machine) :
    session.machine.KeepsScreen (first.andThen next).session.machine := by
  unfold andThen
  split
  case h_1 => exact start
  case h_2 value _ => exact start.trans (others value)

theorem advanceMany_keepsScreen (session : Session) (count : Nat) :
    session.machine.KeepsScreen (session.advanceMany count).session.machine := by
  induction count generalizing session with
  | zero => exact .refl _
  | succ count ih =>
      unfold advanceMany
      split
      case isTrue => exact .refl _
      case isFalse =>
        apply Turnout.andThen_keepsScreen
        · rw [session.advance_machine]
          exact session.machine.cycle_keepsScreen
        · intro value
          exact ih _

theorem runFrame_keepsScreen (session : Session) :
    session.machine.KeepsScreen session.runFrame.session.machine := by
  unfold runFrame
  split
  case h_1 => exact .refl _
  case h_2 count _ =>
    apply Turnout.andThen_keepsScreen (session.advanceMany_keepsScreen count.toNat)
    intro value
    exact .refl _

/-- The host is told, or there is nothing to tell, or a reset took the flag back and left the display
dark. -/
def Told (session : Session) (watch : Watch) : Prop :=
  session.machine.redraw = true ∨ session.machine.display = watch.seen ∨
    .reset ∈ watch.since ∧ session.machine.display = session.machine.display.clear

/-- What keeps the screen keeps what the host is told. -/
theorem Told.keep {watch : Watch} (told : session.Told watch) {after : Session} (action : Action)
    (kept : session.machine.KeepsScreen after.machine) :
    after.Told ⟨watch.seen, watch.since ++ [action]⟩ := by
  unfold Told at told ⊢
  rcases kept with raised | ⟨display, redraw⟩
  · exact .inl raised
  rw [display, redraw]
  rcases told with raised | same | ⟨member, dark⟩
  · exact .inl raised
  · exact .inr (.inl same)
  · exact .inr (.inr ⟨List.mem_append_left _ member, dark⟩)

theorem act_told {watch : Watch} (told : session.Told watch) (action : Action) :
    (session.act action).Told (watch.after session action) := by
  cases action with
  | load program => exact told.keep _ (session.machine.load_keepsScreen program)
  | reset => exact .inr (.inr ⟨List.mem_append_right _ (List.mem_singleton_self _), rfl⟩)
  | start => exact told.keep _ (.refl _)
  | stop => exact told.keep _ (.refl _)
  | press code => exact told.keep _ (.inr ⟨rfl, rfl⟩)
  | release code => exact told.keep _ (.inr ⟨rfl, rfl⟩)
  | cycle => exact told.keep _ session.cycle_keepsScreen
  | runFrame => exact told.keep _ session.runFrame_keepsScreen
  | consumeRedraw => exact .inr (.inl rfl)

theorem actAll_told {watch : Watch} (told : session.Told watch) (actions : List Action) :
    (session.actAll actions).Told (watch.afterAll session actions) := by
  induction actions generalizing session watch with
  | nil => exact told
  | cons action rest ih => exact ih (act_told told action)

/-- Whatever a host does with a session: where the display is not the one that the host saw when it
last asked, or that the session began with, the host is told to redraw it when it asks, unless it has
reset the session since and the display is dark. -/
theorem redraw_told (session : Session) (actions : List Action) :
    let now := session.actAll actions
    let watch := session.watched.afterAll session actions
    now.consumeRedraw.1 = true ∨ now.machine.display = watch.seen ∨
      .reset ∈ watch.since ∧ now.machine.display = now.machine.display.clear := by
  intro now watch
  have start : session.Told session.watched := .inr (.inl rfl)
  exact actAll_told start actions

/-- A session that is started runs a cycle and stays started. -/
theorem cycle_started (started : session.started = true) :
    session.cycle.session.machine = session.machine.cycle.machine ∧
      session.cycle.session.started = true := by
  unfold cycle
  rw [if_pos started]
  refine ⟨session.advance_machine, ?_⟩
  unfold advance
  dsimp only
  split
  · exact started
  · unfold recorded
    split <;> exact started

/-- A program that draws its own first byte leaves the first pixel lit. -/
theorem drawn_pixel :
    let machine := ((Machine.new (.blank 8 4) (.ofSeed 12345)).load
      (some [0xa2, 0x00, 0xd0, 0x01])).machine
    machine.cycle.machine.cycle.machine.display.pixelAt 0 0 = true := by
  intro machine
  let program : List UInt8 := [0xa2, 0x00, 0xd0, 0x01]
  let reset := (Machine.new (.blank 8 4) (.ofSeed 12345)).reset
  have first : Machine.wordAt machine.memory 0x200 = 0xa200 :=
    @Machine.wordAt_withProgram reset.memory program (by decide) 0 (by decide)
  have second : Machine.wordAt machine.memory 0x202 = 0xd001 :=
    @Machine.wordAt_withProgram reset.memory program (by decide) 2 (by decide)
  have sprite : machine.memory.byteAt 0x200 = 0xa2 :=
    @Memory.withProgram_byteAt reset.memory program (by decide) 0 (by decide)
  obtain ⟨early, earlySame, goes⟩ :=
    Machine.cycle_word (show machine.halted = false from rfl) (by decide) rfl first
  obtain ⟨-, indexed⟩ := goes .applied rfl
  generalize machine.cycle.machine = middle at indexed ⊢
  have reached : middle.halted = false ∧ middle.errors = 0 ∧ middle.counter = 0x202 ∧
      middle.memory.bytes = machine.memory.bytes := by
    rw [indexed]
    exact ⟨rfl, rfl, rfl, earlySame⟩
  obtain ⟨awake, errors, place, held⟩ := reached
  have word : Machine.wordAt middle.memory middle.counter = 0xd001 := by
    rw [place]
    exact (Machine.wordAt_congr held 0x202).trans second
  obtain ⟨late, lateSame, ends⟩ :=
    Machine.cycle_word awake (by rw [errors]; decide) (by rw [place]; rfl) word
  have found : late.byteAt 0x200 = 0xa2 :=
    (Memory.byteAt_congr (lateSame.trans held) 0x200).trans sprite
  obtain ⟨-, drawn⟩ := ends .applied (by rw [indexed]; rfl)
  have shown : middle.cycle.machine.display =
      (Display.blank 8 4).turn (Display.cells 8 4 0 0 [late.byteAt 0x200]) := by
    rw [drawn, indexed]
    rfl
  rw [shown, found]
  decide

theorem actAll_append (session : Session) (first second : List Action) :
    session.actAll (first ++ second) = (session.actAll first).actAll second := by
  induction first generalizing session with
  | nil => rfl
  | cons action rest ih => exact ih (session.act action)

theorem Watch.afterAll_append (watch : Watch) (session : Session) (first second : List Action) :
    watch.afterAll session (first ++ second) =
      (watch.afterAll session first).afterAll (session.actAll first) second := by
  induction first generalizing watch session with
  | nil => rfl
  | cons action rest ih => exact ih (watch.after session action) (session.act action)

/-- A program that a host loads and starts runs cycle by cycle. -/
theorem actAll_two_cycles (session : Session) (program : Option (List UInt8)) :
    (session.actAll [.load program, .start, .cycle, .cycle]).machine =
      (session.machine.load program).machine.cycle.machine.cycle.machine := by
  have begun : (session.load program).session.start.started = true := rfl
  obtain ⟨first, runs⟩ := cycle_started begun
  obtain ⟨second, -⟩ := cycle_started runs
  rw [first] at second
  exact second

/-- A reset after a question takes the flag back and darkens the display. -/
theorem consumeRedraw_reset (session : Session) (watch : Watch) :
    (session.actAll [.consumeRedraw, .reset]).machine.display = session.machine.display.clear ∧
      (watch.afterAll session [.consumeRedraw, .reset]).seen = session.machine.display ∧
      (session.actAll [.consumeRedraw, .reset]).consumeRedraw.1 = false :=
  ⟨rfl, rfl, rfl⟩

/-- Not every change is told: a host that has seen a lit pixel and then resets the session is not told
that the display is dark. -/
theorem not_told_reset :
    ¬ ∀ (system overrides : Value) (session : Session),
      make Display.usualPixels system overrides = .ok session →
      ∀ actions, (session.actAll actions).machine.display ≠
          (session.watched.afterAll session actions).seen →
        (session.actAll actions).consumeRedraw.1 = true := by
  intro promised
  let overrides := Value.record [("resolution", .ints [8, 4])]
  have made : (make Display.usualPixels (.text systemName) overrides).map Session.machine =
      .ok (.new (.blank 8 4) (.ofSeed 12345)) := rfl
  cases makes : make Display.usualPixels (.text systemName) overrides with
  | error fault =>
      rw [makes] at made
      cases made
  | ok session =>
      rw [makes] at made
      have machine : session.machine = .new (.blank 8 4) (.ofSeed 12345) := Except.ok.inj made
      let early : List Action :=
        [.load (some [0xa2, 0x00, 0xd0, 0x01]), .start, .cycle, .cycle]
      have pixel : (session.actAll early).machine.display.pixelAt 0 0 = true := by
        rw [actAll_two_cycles, machine]
        exact drawn_pixel
      have told := promised _ _ session makes (early ++ [.consumeRedraw, .reset])
      rw [actAll_append, Watch.afterAll_append] at told
      obtain ⟨dark, seen, quiet⟩ := consumeRedraw_reset (session.actAll early)
        (session.watched.afterAll session early)
      rw [dark, seen, quiet] at told
      have changed : (session.actAll early).machine.display.clear ≠
          (session.actAll early).machine.display := by
        intro same
        rw [← same, Display.clear_pixelAt] at pixel
        cases pixel
      exact absurd (told changed) Bool.false_ne_true

end Session

end ChipEight
