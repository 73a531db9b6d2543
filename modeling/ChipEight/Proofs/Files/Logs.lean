/-
This file says where the lines of a log go. The names of a settled path lead to the place that they spell, and once
a log was opened there is a file at that place, which grows by what is added to it.
-/

import ChipEight.Proofs.Files.Contents

namespace ChipEight

/-- No part of a text that is cut at a character holds it. -/
theorem Text.not_mem_splitOn {separator : Char} {text part : String}
    (member : part ∈ text.splitOn (String.ofList [separator])) : separator ∉ part.toList := by
  rw [splitOn_character] at member
  obtain ⟨characters, cut, rfl⟩ := List.mem_map.mp member
  rw [String.toList_ofList]
  rw [List.splitOn_eq_splitOnP] at cut
  -- What was read since the last cut is free of the character as well.
  suffices free : ∀ rest read : List Char, separator ∉ read →
      ∀ part ∈ List.splitOnPPrepend (· == separator) rest read, separator ∉ part from
    free text.toList [] List.not_mem_nil characters cut
  intro rest
  induction rest with
  | nil =>
      intro read unread part last
      rw [List.splitOnPPrepend_nil, List.mem_singleton] at last
      rwa [last, List.mem_reverse]
  | cons next rest ih =>
      intro read unread part later
      rw [List.splitOnPPrepend_cons_eq_if] at later
      split at later
      case isTrue =>
        rcases List.mem_cons.mp later with rfl | others
        · rwa [List.mem_reverse]
        · exact ih [] List.not_mem_nil part others
      case isFalse other =>
        have apart : separator ≠ next := fun same => other (beq_iff_eq.mpr same.symm)
        exact ih (next :: read) (List.not_mem_cons_of_ne_of_not_mem apart unread) part later

namespace Path

/-- A name that leads down from a directory. -/
structure IsDown (name : String) : Prop where
  single : '/' ∉ name.toList
  given : name ≠ ""
  leaves : name ≠ "."
  down : name ≠ ".."

/-- What a path comes to, the last step first: steps down after steps up. -/
def UpThenDown (taken : List String) : Prop :=
  ∃ downs ups, taken = downs ++ ups ∧ (∀ down ∈ downs, IsDown down) ∧ ∀ up ∈ ups, up = ".."

theorem mem_steps {path part : String} (member : part ∈ steps path) : '/' ∉ part.toList ∧ part ≠ "" := by
  obtain ⟨cut, filled⟩ := List.mem_filter.mp member
  exact ⟨Text.not_mem_splitOn cut, by simpa using filled⟩

/-- The steps of a path after those that stay and those to the parent have been taken lead up first, and then
down. -/
theorem settled_parts (path : String) :
    ∃ ups downs, settled path = ups ++ downs ∧ (∀ up ∈ ups, up = "..") ∧ ∀ down ∈ downs, IsDown down := by
  suffices shaped : UpThenDown (settled path).reverse by
    obtain ⟨downs, ups, same, down, up⟩ := shaped
    refine ⟨ups.reverse, downs.reverse, by rw [← List.reverse_append, ← same, List.reverse_reverse], ?_, ?_⟩
    · exact fun name member => up name (List.mem_reverse.mp member)
    · exact fun name member => down name (List.mem_reverse.mp member)
  unfold settled
  rw [List.reverse_reverse]
  refine List.foldlRecOn (steps path) _ ⟨[], [], rfl, nofun, nofun⟩ ?_
  rintro _ ⟨downs, ups, rfl, down, up⟩ part member
  obtain ⟨single, given⟩ := mem_steps member
  split
  case isTrue => exact ⟨downs, ups, rfl, down, up⟩
  case isFalse leaves =>
    rw [beq_iff_eq] at leaves
    have pushed (further : part ≠ "..") : UpThenDown (part :: (downs ++ ups)) :=
      ⟨part :: downs, ups, rfl, List.forall_mem_cons.mpr ⟨⟨single, given, leaves, further⟩, down⟩, up⟩
    cases downs with
    | nil =>
        -- Only steps up were taken, so that another one goes on with them.
        have higher : UpThenDown (part :: ups) := by
          by_cases upward : part = ".."
          · exact ⟨[], part :: ups, rfl, nofun, List.forall_mem_cons.mpr ⟨upward, up⟩⟩
          · exact pushed upward
        cases ups with
        | nil => exact higher
        | cons last more =>
            have top : last = ".." := up last List.mem_cons_self
            simpa [top] using higher
    | cons last more =>
        have below : last ≠ ".." := (down last List.mem_cons_self).down
        by_cases upward : part = ".."
        · simp only [List.cons_append, upward, beq_self_eq_true, bne_iff_ne.mpr below, Bool.and_self, if_true]
          exact ⟨more, ups, rfl, fun name member => down name (List.mem_cons_of_mem last member), up⟩
        · simpa [upward] using pushed upward

end Path

namespace Files

variable {files opened : Files} {path : String} {place : List String}

/-- Steps up from the working directory go through. -/
theorem steps_up {ups start : List String} (above : ∀ up ∈ start, up = "..") (up : ∀ up ∈ ups, up = "..") :
    ups.foldlM (fun place name => files.step place name) start = .ok (start ++ ups) := by
  induction ups generalizing start with
  | nil => rw [List.append_nil]; rfl
  | cons first rest ih =>
      obtain ⟨rfl, others⟩ := List.forall_mem_cons.mp up
      have high : (start.all fun name => name == "..") = true :=
        List.all_eq_true.mpr fun name member => beq_iff_eq.mpr (above name member)
      have there : files.node? start = some .directory := if_pos high
      have taken : files.step start ".." = .ok (start ++ [".."]) := by
        simp [step, there, Files.above, high]
      rw [List.foldlM_cons, taken]
      have further : ∀ up ∈ start ++ [".."], up = ".." :=
        List.forall_mem_append.mpr ⟨above, List.forall_mem_singleton.mpr rfl⟩
      exact (ih further others).trans (by rw [List.append_assoc]; rfl)

/-- Steps down lead where their names say, or nowhere. -/
theorem steps_down {start downs target : List String} (down : ∀ name ∈ downs, Path.IsDown name)
    (steps : downs.foldlM (fun place name => files.step place name) start = .ok target) :
    target = start ++ downs := by
  induction downs generalizing start with
  | nil =>
      cases steps
      exact (List.append_nil _).symm
  | cons name rest ih =>
      obtain ⟨here, others⟩ := List.forall_mem_cons.mp down
      rw [List.foldlM_cons] at steps
      cases first : files.step start name with
      | error refusal =>
          rw [first] at steps
          cases steps
      | ok next =>
          rw [first] at steps
          rw [ih others steps]
          suffices next = start ++ [name] by rw [this, List.append_assoc]; rfl
          unfold step at first
          simp only [beq_iff_eq, here.leaves, here.down, if_false] at first
          split at first
          case h_1 => cases first
          case h_2 => cases first
          case h_3 =>
            split at first
            · cases first
            · exact (Except.ok.inj first).symm

/-- A path that is settled leads to the place that its names spell. -/
theorem locate_settled (located : files.locate ("/".intercalate (Path.settled path)) = .ok place) :
    place = Path.settled path := by
  obtain ⟨ups, downs, same, up, down⟩ := Path.settled_parts path
  have filled : Path.settled path ≠ [] := by
    intro none
    rw [none] at located
    cases located
  have named : ∀ name ∈ Path.settled path, '/' ∉ name.toList ∧ name ≠ "" := by
    rw [same]
    refine List.forall_mem_append.mpr ⟨fun name member => ?_, fun name member => ?_⟩
    · rw [up name member]
      decide
    · exact ⟨(down name member).single, (down name member).given⟩
  have steps : Path.steps ("/".intercalate (Path.settled path)) = Path.settled path := by
    rw [Path.steps, show "/" = String.ofList ['/'] from rfl,
      Text.splitOn_intercalate filled fun name member => (named name member).1]
    exact List.filter_eq_self.mpr fun name member => by simpa using (named name member).2
  unfold locate at located
  split at located
  · cases located
  split at located
  · cases located
  rw [steps, same, List.foldlM_append, steps_up (List.forall_mem_nil _) up] at located
  rw [same]
  exact steps_down down located

/-- Once a log was opened there is a file at its place. -/
theorem openLog_present (opens : files.openLog path = .ok opened) :
    ∃ content, opened.node? (Path.settled path) = some (.file content) := by
  unfold openLog at opens
  dsimp only at opens
  split at opens
  case isTrue =>
    unfold guarded at opens
    split at opens <;> cases opens
  case isFalse =>
    unfold guarded at opens
    split at opens
    · cases opens
    · cases found : files.writable ("/".intercalate (Path.settled path)) with
      | error refusal =>
          rw [found] at opens
          cases opens
      | ok there =>
          obtain ⟨place, present⟩ := there
          rw [found] at opens
          obtain ⟨located, single, held⟩ := writable_found found
          obtain rfl := locate_settled located
          cases present with
          | some content =>
              cases opens
              exact ⟨content, held⟩
          | none =>
              cases opens
              exact ⟨.bytes .empty, (node?_set_free (not_directory held) _ _).trans (if_pos rfl)⟩

end Files

end ChipEight
