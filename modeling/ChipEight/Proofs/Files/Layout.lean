/-
This file shows what writing and making directories ask of the files that are there: only their layout,
which says where there is a directory, where a file and where nothing. What the files hold decides
neither what is made nor what is refused.
-/

import ChipEight.Files

namespace ChipEight

def Node.isDirectory : Node → Bool
  | .directory => true
  | .file _ => false

namespace Files

/-- Whether there is a directory or a file at each place, if there is anything. -/
def layout (files : Files) (place : List String) : Option Bool :=
  (files.node? place).map Node.isDirectory

variable {first second : Files}

/-! ### Places -/

/-- What is at one place of two files with the same layout. -/
theorem node?_cases (same : first.layout = second.layout) (place : List String) :
    (first.node? place = none ∧ second.node? place = none) ∨
      (first.node? place = some .directory ∧ second.node? place = some .directory) ∨
        ∃ one other, first.node? place = some (.file one) ∧
          second.node? place = some (.file other) := by
  have here := congrFun same place
  unfold layout at here
  generalize first.node? place = node at here ⊢
  generalize second.node? place = twin at here ⊢
  match node, twin with
  | none, none => exact .inl ⟨rfl, rfl⟩
  | some .directory, some .directory => exact .inr (.inl ⟨rfl, rfl⟩)
  | some (.file one), some (.file other) => exact .inr (.inr ⟨one, other, rfl, rfl⟩)

/-- The list without the entries of a name has nothing under it, and all else as before. -/
theorem lookup_filter_ne (nodes : List (List String × Node)) (place other : List String) :
    (nodes.filter fun entry => entry.1 != place).lookup other =
      if other = place then none else nodes.lookup other := by
  induction nodes with
  | nil => simp
  | cons entry rest ih =>
      obtain ⟨name, node⟩ := entry
      by_cases gone : name = place
      · simp only [gone, bne_self_eq_false, Bool.false_eq_true, not_false_eq_true,
          List.filter_cons_of_neg, ih, List.lookup_cons]
        split
        · rfl
        case isFalse differs => simp [beq_false_of_ne differs]
      · have stays : (name != place) = true := bne_iff_ne.mpr gone
        rw [List.filter_cons, if_pos stays, List.lookup_cons, List.lookup_cons, ih]
        split
        case h_1 found => simp [eq_of_beq found, gone]
        case h_2 => rfl

/-- A new node is at its place, and only there. No node takes the place of a directory above. -/
theorem node?_set (files : Files) (place other : List String) (node : Node) :
    (files.set place node).node? other =
      if other.all fun name => name == ".." then some .directory
      else if other = place then some node else files.node? other := by
  unfold node? set
  split
  · rfl
  · rw [List.lookup_append, lookup_filter_ne]
    by_cases found : other = place
    · simp [found]
    · simp [found, List.lookup_cons, beq_false_of_ne found]

theorem layout_set (same : first.layout = second.layout) (place : List String) {one other : Node}
    (alike : one.isDirectory = other.isDirectory) :
    (first.set place one).layout = (second.set place other).layout := by
  funext here
  unfold layout
  rw [node?_set, node?_set]
  split
  · rfl
  · split
    · exact congrArg some alike
    · exact congrFun same here

/-- A new file in the place of one leaves the layout. -/
theorem layout_set_file {files : Files} {place : List String} {old : Content}
    (present : files.node? place = some (.file old)) (new : Content) :
    (files.set place (.file new)).layout = files.layout := by
  funext here
  unfold layout
  rw [node?_set]
  split
  case isTrue above =>
    rw [show files.node? here = some .directory from if_pos above]
  case isFalse =>
    split
    case isTrue found => rw [found, present]; rfl
    case isFalse => rfl

theorem step_layout (same : first.layout = second.layout) (place : List String) (name : String) :
    first.step place name = second.step place name := by
  unfold step
  rcases node?_cases same place with ⟨one, other⟩ | ⟨one, other⟩ | ⟨_, _, one, other⟩ <;>
    rw [one, other]

theorem locate_layout (same : first.layout = second.layout) (path : String) :
    first.locate path = second.locate path := by
  unfold locate
  rw [funext fun place => funext fun name => step_layout same place name]

theorem find?_layout (same : first.layout = second.layout) (path : String) :
    (first.find? path).map Node.isDirectory = (second.find? path).map Node.isDirectory := by
  unfold find?
  rw [locate_layout same]
  cases second.locate path with
  | error refusal => rfl
  | ok place =>
      dsimp only
      rcases node?_cases same place with ⟨one, other⟩ | ⟨one, other⟩ | ⟨_, _, one, other⟩
      · rw [one, other]
      · rw [one, other]
      · rw [one, other]
        dsimp only
        split <;> rfl

theorem exists?_layout (same : first.layout = second.layout) (path : String) :
    first.exists? path = second.exists? path := by
  have found := congrArg Option.isSome (find?_layout same path)
  rwa [Option.isSome_map, Option.isSome_map] at found

theorem isDirectory_layout (same : first.layout = second.layout) (path : String) :
    first.isDirectory path = second.isDirectory path := by
  have found := find?_layout same path
  unfold isDirectory
  generalize first.find? path = node at found ⊢
  generalize second.find? path = twin at found ⊢
  match node, twin with
  | none, none => rfl
  | some .directory, some .directory => rfl
  | some (.file _), some (.file _) => rfl

/-! ### Writing -/

theorem guarded_map {A B : Type} (path : String) (action : Except Refusal A) (view : A → B) :
    (guarded path action).map view = guarded path (action.map view) := by
  unfold guarded
  split
  · rfl
  · cases action <;> rfl

theorem writable_layout (same : first.layout = second.layout) (path : String) :
    (first.writable path).map Prod.fst = (second.writable path).map Prod.fst := by
  unfold writable
  rw [locate_layout same]
  cases second.locate path with
  | error refusal => rfl
  | ok place =>
      simp only [bind, Except.bind]
      split
      · rfl
      · rcases node?_cases same place with ⟨one, other⟩ | ⟨one, other⟩ | ⟨_, _, one, other⟩ <;>
          rw [one, other] <;> rfl

/-- Writing is refused alike, or gives files with the same layout. -/
theorem write_layout (same : first.layout = second.layout) (path : String) (content : Content) :
    (first.write path content).map layout = (second.write path content).map layout := by
  have places := writable_layout same path
  unfold write
  rw [guarded_map, guarded_map]
  congr 1
  cases one : first.writable path with
  | error refusal =>
      rw [one] at places
      cases other : second.writable path with
      | error twin =>
          rw [other] at places
          exact congrArg Except.error (Except.error.inj places)
      | ok twin =>
          rw [other] at places
          cases places
  | ok found =>
      rw [one] at places
      cases other : second.writable path with
      | error twin =>
          rw [other] at places
          cases places
      | ok twin =>
          rw [other] at places
          have place : found.1 = twin.1 := Except.ok.inj places
          change Except.ok (first.set found.1 _).layout = Except.ok (second.set twin.1 _).layout
          rw [place, layout_set same twin.1 rfl]

theorem addText_layout (files : Files) (path text : String) :
    (files.addText path text).layout = files.layout := by
  unfold addText
  dsimp only
  split
  case h_1 present => exact layout_set_file present _
  case h_2 => rfl

/-! ### Directories -/

/-- What is left when directories were made, and how that ended. -/
def Made.outline (made : Made) : (List String → Option Bool) × Except Fault Unit :=
  (made.files.layout, made.result)

theorem Made.outline_eq {first second : Made} (same : first.outline = second.outline) :
    first.files.layout = second.files.layout ∧ first.result = second.result :=
  Prod.ext_iff.mp same

theorem Made.andThen_outline {first second : Made} {next : Files → Made}
    (same : first.outline = second.outline)
    (later : ∀ {one other : Files}, one.layout = other.layout →
      (next one).outline = (next other).outline) :
    (first.andThen next).outline = (second.andThen next).outline := by
  obtain ⟨layouts, results⟩ := Made.outline_eq same
  unfold Made.andThen
  rw [results]
  split
  · exact later layouts
  · exact same

theorem makeDirectory_layout (same : first.layout = second.layout) (path : String) :
    (first.makeDirectory path).map layout = (second.makeDirectory path).map layout := by
  unfold makeDirectory
  rw [guarded_map, guarded_map, locate_layout same]
  congr 1
  cases second.locate path with
  | error refusal => rfl
  | ok place =>
      simp only [bind, Except.bind]
      rcases node?_cases same place with ⟨one, other⟩ | ⟨one, other⟩ | ⟨_, _, one, other⟩
      · rw [one, other]
        exact congrArg Except.ok (layout_set same place rfl)
      · rw [one, other]
      · rw [one, other]

theorem makeLast_outline (mayExist : Bool) (path : String) (same : first.layout = second.layout) :
    (makeLast mayExist path first).outline = (makeLast mayExist path second).outline := by
  have made := makeDirectory_layout same path
  unfold makeLast
  rw [isDirectory_layout same]
  generalize first.makeDirectory path = one at made ⊢
  generalize second.makeDirectory path = other at made ⊢
  match one, other with
  | .ok one, .ok other => exact Prod.ext (Except.ok.inj made) rfl
  | .error fault, .error twin =>
      have faults : fault = twin := Except.error.inj made
      rw [faults]
      dsimp only
      split <;> exact Prod.ext same rfl

/-- That a directory above is there already is no problem. -/
theorem forgiven_outline {first second : Made} (same : first.outline = second.outline) :
    Made.outline
        (match first.result with
          | .error (.file .present _) => ⟨first.files, .ok ()⟩
          | _ => first) =
      Made.outline
        (match second.result with
          | .error (.file .present _) => ⟨second.files, .ok ()⟩
          | _ => second) := by
  obtain ⟨layouts, results⟩ := Made.outline_eq same
  rw [results]
  split
  · exact Prod.ext layouts rfl
  · exact same

theorem makeDirectoriesIn_outline (mayExist : Bool) (fuel : Nat) (path : String)
    (same : first.layout = second.layout) :
    (makeDirectoriesIn mayExist fuel first path).outline =
      (makeDirectoriesIn mayExist fuel second path).outline := by
  induction fuel generalizing path with
  | zero => exact Prod.ext same rfl
  | succ fuel ih =>
      unfold makeDirectoriesIn
      dsimp only
      generalize (if (Path.name path).isEmpty = true then Path.directory path else path) = whole
      have ready := forgiven_outline (ih (Path.directory whole))
      rw [exists?_layout same]
      by_cases deeper : (!(Path.directory whole).isEmpty && !(Path.name whole).isEmpty &&
          !second.exists? (Path.directory whole)) = true
      · rw [if_pos deeper, if_pos deeper]
        split
        · exact ready
        · exact Made.andThen_outline ready fun alike => makeLast_outline mayExist path alike
      · rw [if_neg deeper, if_neg deeper]
        exact makeLast_outline mayExist path same

theorem makeDirectories_outline (mayExist : Bool) (path : String)
    (same : first.layout = second.layout) :
    (first.makeDirectories mayExist path).outline = (second.makeDirectories mayExist path).outline :=
  makeDirectoriesIn_outline mayExist deepestDirectory path same

theorem makeParent_outline (path : String) (same : first.layout = second.layout) :
    (first.makeParent path).outline = (second.makeParent path).outline := by
  unfold makeParent
  dsimp only
  rw [exists?_layout same]
  split
  · exact Prod.ext same rfl
  · exact makeDirectories_outline false _ same

end Files

end ChipEight
