/-
This file follows paths through settings: what is found along a path, and what a value at the end of a path
does to other paths. Only paths of which one begins the other have to do with each other.
-/

import ChipEight.Proofs.Settings.Pace
import ChipEight.Proofs.Value.Lookup

namespace ChipEight.Settings

/-! ### Dotted names -/

/-- The parts of two names with a point between them. -/
theorem parts_dotted (outer inner : String) : parts (outer ++ "." ++ inner) = parts outer ++ parts inner :=
  Text.splitOn_joined '.' outer inner

theorem parts_pair (outer inner : String) (first : '.' ∉ outer.toList) (second : '.' ∉ inner.toList) :
    parts (outer ++ "." ++ inner) = [outer, inner] := by
  rw [parts_dotted, parts_plain first, parts_plain second, List.singleton_append]

/-! ### Looking along a path -/

variable {entries tree inner : Entries} {value held : Value} {path other rest base : List String}
  {name part : String}

theorem find?_cons (value : Value) (part : String) (rest : List String) :
    find? value (part :: rest) = (value.field? part).bind fun inner => find? inner rest := by
  rw [find?]
  cases value.field? part <;> rfl

theorem find?_append (value : Value) (path rest : List String) :
    find? value (path ++ rest) = (find? value path).bind fun inner => find? inner rest := by
  induction path generalizing value with
  | nil => rfl
  | cons part others ih =>
      rw [List.cons_append, find?_cons, find?_cons, Option.bind_assoc]
      exact congrArg _ (funext fun inner => ih inner)

theorem find?_top (tree : Entries) (name : String) :
    find? (.dict tree) [name] = Entries.find? tree (.text name) := by
  rw [find?_cons]
  exact Option.bind_fun_some _

theorem find?_inner (part : String) (found : Entries.find? tree (.text name) = some (.dict inner)) :
    find? (.dict tree) [name, part] = Entries.find? inner (.text part) := by
  rw [find?_cons, Value.field?, found, Option.bind_some, find?_top]

theorem find?_shapeless (shapeless : value.entries? = none) (part : String) (rest : List String) :
    find? value (part :: rest) = none := by
  rw [find?_cons]
  cases value with
  | dict entries => cases shapeless
  | _ => rfl

/-- What has something along a path is a mapping. -/
theorem find?_mapping (found : find? value (path ++ part :: rest) = some held) :
    ∃ entries, find? value path = some (.dict entries) := by
  rw [find?_append] at found
  cases there : find? value path with
  | none =>
      rw [there] at found
      cases found
  | some inner =>
      rw [there, Option.bind_some] at found
      rcases inner.entries_cases with ⟨entries, rfl⟩ | shapeless
      · exact ⟨entries, rfl⟩
      · rw [find?_shapeless shapeless] at found
        cases found

/-! ### Paths that meet -/

/-- One path begins the other. -/
def Meet (one other : List String) : Prop := one <+: other ∨ other <+: one

theorem meet_nil_left (path : List String) : Meet [] path := .inl List.nil_prefix

theorem meet_nil_right (path : List String) : Meet path [] := .inr List.nil_prefix

theorem meet_cons : Meet (name :: path) (part :: other) ↔ name = part ∧ Meet path other := by
  unfold Meet
  rw [List.cons_prefix_cons, List.cons_prefix_cons, eq_comm, ← and_or_left]

/-- What meets a path meets what begins it. -/
theorem Meet.start (meet : Meet path (other ++ rest)) : Meet path other := by
  rcases meet with begins | longer
  · exact List.prefix_or_prefix_of_prefix begins (List.prefix_append other rest)
  · exact .inr ((List.prefix_append other rest).trans longer)

/-! ### Putting a value at the end of a path -/

/-- What is in the mapping under a name, if one is there. -/
def inside (entries : Entries) (name : String) : Entries :=
  ((Entries.find? entries (.text name)).bind Value.entries?).getD []

theorem put_cons (entries : Entries) (value : Value) (part : String) (filled : path ≠ []) :
    put entries value (part :: path) =
      Entries.put entries (.text part) (.dict (put (inside entries part) value path)) := by
  rw [put]
  · rfl
  · exact filled

theorem find?_inside (entries : Entries) (name : String) (filled : rest ≠ []) :
    find? (.dict (inside entries name)) rest = find? (.dict entries) (name :: rest) := by
  obtain ⟨first, later, rfl⟩ := List.exists_cons_of_ne_nil filled
  rw [find?_cons (.dict entries), Value.field?, inside]
  cases Entries.find? entries (.text name) with
  | none => rfl
  | some old =>
      rcases old.entries_cases with ⟨held, rfl⟩ | shapeless
      · rfl
      · rw [Option.bind_some, Option.bind_some, shapeless, find?_shapeless shapeless]
        rfl

/-- What is put under a name is found there. -/
theorem find?_put_same (entries : Entries) (name : String) (value : Value) (rest : List String) :
    find? (.dict (Entries.put entries (.text name) value)) (name :: rest) = find? value rest := by
  rw [find?_cons, Value.field?, Entries.findPutSame, Option.bind_some]

theorem find?_put_other (entries : Entries) (value : Value) (rest : List String) (other : name ≠ part) :
    find? (.dict (Entries.put entries (.text part) value)) (name :: rest) =
      find? (.dict entries) (name :: rest) := by
  have faces : (Key.text name).face ≠ (Key.text part).face := fun same => other (Face.text.inj same)
  rw [find?_cons, find?_cons, Value.field?, Value.field?, Entries.findPutOther entries value faces]

/-- Below the path there is what is in the value. -/
theorem find?_put_below (entries : Entries) (value : Value) (filled : path ≠ []) (rest : List String) :
    find? (.dict (put entries value path)) (path ++ rest) = find? value rest := by
  induction path generalizing entries with
  | nil => exact absurd rfl filled
  | cons part more ih =>
      rw [List.cons_append]
      cases more with
      | nil => exact find?_put_same entries part value rest
      | cons next others =>
          rw [put_cons entries value part (List.cons_ne_nil next others), find?_put_same]
          exact ih _ nofun

/-- Other paths lead to what they led to. -/
theorem find?_put_apart (entries : Entries) (value : Value) (apart : ¬ Meet path other) :
    find? (.dict (put entries value path)) other = find? (.dict entries) other := by
  induction path generalizing entries other with
  | nil => exact absurd (meet_nil_left other) apart
  | cons part more ih =>
      cases other with
      | nil => exact absurd (meet_nil_right _) apart
      | cons name rest =>
          have further (same : name = part) : ¬ Meet more rest := fun meet =>
            apart (meet_cons.mpr ⟨same.symm, meet⟩)
          cases more with
          | nil => exact find?_put_other entries value rest fun same => further same (meet_nil_left rest)
          | cons next others =>
              rw [put_cons entries value part (List.cons_ne_nil next others)]
              by_cases same : name = part
              · have filled : rest ≠ [] := fun none => further same (none ▸ meet_nil_right _)
                subst same
                rw [find?_put_same, ih _ (further rfl), find?_inside entries name filled]
              · exact find?_put_other entries _ rest same

end ChipEight.Settings
