/-
This file shows which size of frames a session has: the one that the settings of its user ask for,
whatever system they name.
-/

import ChipEight.Proofs.Text.Splitting
import ChipEight.Settings

namespace ChipEight.Settings

/-- A dotted name without a point has one part. -/
theorem parts_plain {name : String} (plain : '.' ∉ name.toList) : parts name = [name] :=
  Text.splitOn_plain plain

/-- The cycles of a frame that settings ask for. -/
def frameSize (settings : Settings) : Value :=
  settings.get "cycles_per_frame" (.int Session.usualCyclesPerFrame)

theorem frameSize_initial : (frameSize .initial).whole? = some Session.usualCyclesPerFrame := by
  unfold frameSize get
  rw [parts_plain (by decide)]
  rfl

/-- What the settings of the user say of frames counts, whether or not the system is known. -/
theorem find?_cycles (cycles seed : Value) {usual : Entries}
    (known : usual = (Session.usualSettings.entries?).getD [] ∨ usual = []) :
    Entries.find?
        (Entries.putAll ((Session.usualSettings.entries?).getD [])
          (Entries.put (Entries.put usual (.text "cycles_per_frame") cycles) (.text "seed") seed))
        (.text "cycles_per_frame") =
      some cycles := by
  rcases known with rfl | rfl <;> rfl

/-- The settings of a system are the usual ones with others laid over them. -/
theorem settingsOf_eq {system overrides : Value} {entries : Entries}
    (laid : Session.settingsOf system overrides = .ok entries) :
    entries = Entries.putAll ((Session.usualSettings.entries?).getD [])
      (overrides.entries?.getD []) := by
  unfold Session.settingsOf at laid
  split at laid
  · cases laid
  · split at laid
    · exact (Except.ok.inj laid).symm
    · cases laid

/-- A session is made from the settings of its system. -/
theorem make_settings {room : Nat} {system overrides : Value} {session : Session}
    (made : Session.make room system overrides = .ok session) :
    Session.settingsOf system overrides = .ok session.settings ∧
      session.cyclesPerFrame = Session.setting session.settings "cycles_per_frame"
        (.int Session.usualCyclesPerFrame) := by
  unfold Session.make at made
  cases laid : Session.settingsOf system overrides with
  | error fault =>
      rw [laid] at made
      cases made
  | ok entries =>
      rw [laid] at made
      simp only [bind, Except.bind] at made
      split at made
      · cases made
      · split at made
        · cases made
        · obtain rfl := Except.ok.inj made
          exact ⟨rfl, rfl⟩

/-- What the settings of a user lay over those of the system. -/
theorem systemSettings_entries {settings : Settings} {overrides : Value}
    (laid : settings.systemSettings = .ok overrides) :
    ∃ usual : Entries, (usual = (Session.usualSettings.entries?).getD [] ∨ usual = []) ∧
      overrides.entries? = some (Entries.put
        (Entries.put usual (.text "cycles_per_frame") settings.frameSize)
        (.text "seed") (settings.get "seed" (.int Machine.usualSeed))) := by
  unfold systemSettings at laid
  split at laid
  · cases laid
  · exact ⟨_, by split <;> simp, congrArg Value.entries? (Except.ok.inj laid).symm⟩

/-- A session that is made with the settings of a user has frames of the size that they ask for. -/
theorem make_cyclesPerFrame {room : Nat} {settings : Settings} {system overrides : Value} {session : Session}
    (laid : settings.systemSettings = .ok overrides)
    (made : Session.make room system overrides = .ok session) :
    session.cyclesPerFrame = settings.frameSize := by
  obtain ⟨usual, known, entries⟩ := systemSettings_entries laid
  obtain ⟨mixed, size⟩ := make_settings made
  rw [size, Session.setting, settingsOf_eq mixed, entries, Option.getD_some,
    find?_cycles settings.frameSize _ known, Option.getD_some]

end ChipEight.Settings
