import Scaffold.Project.Variables
import Scaffold.Template

set_option autoImplicit false

/-! # What a text refers to

The value of a text depends on the variables through its references alone: two tables that give the
same value to every name that a text refers to make the same of it (`substitute_congr`). Names are
compared in upper case, on both sides. Of the variables of a project, the identifiers are set last
and under names of their own, so other identifiers change nothing for a text that refers to none of
them (`substitute_forProject`). -/

namespace Scaffold

namespace VariableTable

variable {vars : VariableTable}

/-- The name that an access asks for. -/
def accessName (access : List Char) : String :=
  String.ofList (accessParts access).1

@[simp]
theorem get?_set (name value other : String) :
    (vars.set name value).get? other =
      if Text.upper other = Text.upper name then some value else vars.get? other := by
  simp only [get?, set, Keyed.get?_insert]

/-- Setting variables changes nothing for other names. -/
theorem get?_setAll_of_ne {assignments : List (String × String)} {name : String}
    (h : ∀ assignment ∈ assignments, Text.upper name ≠ Text.upper assignment.1) :
    (vars.setAll assignments).get? name = vars.get? name := by
  unfold setAll
  induction assignments generalizing vars with
  | nil => rfl
  | cons assignment assignments ih =>
    have hne := h assignment List.mem_cons_self
    rw [List.foldl_cons, ih fun other hother => h other (List.mem_cons_of_mem _ hother)]
    simp [hne]

theorem setAll_append (before after : List (String × String)) :
    vars.setAll (before ++ after) = (vars.setAll before).setAll after := by
  unfold setAll
  rw [List.foldl_append]

theorem resolve_eq_of_get? {vars vars' : VariableTable} {access : List Char}
    (h : vars'.get? (accessName access) = vars.get? (accessName access)) :
    vars'.resolve (String.ofList access) = vars.resolve (String.ofList access) := by
  unfold accessName at h
  simp only [resolve, String.toList_ofList, h]

end VariableTable

open VariableTable

/-! ## References -/

/-- The text holds a complete reference to one of the variables, by whatever spelling of its name. -/
def RefersTo (names : List String) (text : String) : Prop :=
  ∃ access, .reference access ∈ (Template.read text.toList).pieces ∧
    ∃ name ∈ names, Text.upper (accessName access) = Text.upper name

/-- Whether a piece is a reference to one of the variables. -/
def Template.Piece.asksFor (names : List String) : Piece → Bool
  | .reference access => names.any fun name => Text.upper (accessName access) == Text.upper name
  | _ => false

theorem refersTo_iff {names : List String} {text : String} :
    RefersTo names text ↔
      (Template.read text.toList).pieces.any (Template.Piece.asksFor names) = true := by
  rw [List.any_eq_true]
  constructor
  · rintro ⟨access, haccess, name, hname, heq⟩
    refine ⟨_, haccess, ?_⟩
    simpa [Template.Piece.asksFor] using ⟨name, hname, heq⟩
  · rintro ⟨piece, hpiece, hasks⟩
    cases piece with
    | reference access =>
      obtain ⟨name, hname, heq⟩ := List.any_eq_true.1 hasks
      exact ⟨access, hpiece, name, hname, eq_of_beq heq⟩
    | _ => simp [Template.Piece.asksFor] at hasks

instance (names : List String) (text : String) : Decidable (RefersTo names text) :=
  decidable_of_iff _ refersTo_iff.symm

theorem Template.Piece.value_congr {vars vars' : VariableTable} {piece : Piece}
    (h : ∀ access, piece = .reference access →
      vars'.get? (accessName access) = vars.get? (accessName access)) :
    piece.value vars' = piece.value vars := by
  cases piece with
  | reference access =>
    simp only [value]
    rw [resolve_eq_of_get? (h access rfl)]
  | _ => rfl

/-- Tables that give the same to every name that a text refers to make the same of the text. -/
theorem substitute_congr {vars vars' : VariableTable} {text : String}
    (h : ∀ access, .reference access ∈ (Template.read text.toList).pieces →
      vars'.get? (accessName access) = vars.get? (accessName access)) :
    substitute vars' text = substitute vars text := by
  have hpieces : ∀ piece ∈ (Template.read text.toList).pieces,
      Template.Piece.value vars' piece = Template.Piece.value vars piece := by
    intro piece hpiece
    refine Template.Piece.value_congr fun access haccess => ?_
    subst haccess
    exact h access hpiece
  unfold substitute Template.Reading.value
  rw [List.flatMap_def, List.flatMap_def, List.map_congr_left hpieces]

/-! ## The identifiers of a project -/

/-- The names of the variables that hold the identifiers. -/
def idNames : List String :=
  ["GUID-Solution", "GUID-GameProject", "GUID-AppAndroid", "GUID-AppWinPC"]

theorem map_fst_assignments (ids : ProjectIds) : ids.assignments.map Prod.fst = idNames := rfl

theorem get?_forProject {o : ProjectOptions} {ids : ProjectIds} {name : String}
    (h : ∀ idName ∈ idNames, Text.upper name ≠ Text.upper idName) :
    (VariableTable.forProject o ids).get? name =
      (VariableTable.initial.setAll o.assignments).get? name := by
  unfold VariableTable.forProject
  rw [setAll_append]
  refine get?_setAll_of_ne fun assignment hassignment => ?_
  refine h assignment.1 ?_
  rw [← map_fst_assignments ids]
  exact List.mem_map_of_mem hassignment

/-- For a text that does not refer to the identifiers of a project, they do not matter. -/
theorem substitute_forProject {o : ProjectOptions} {text : String} (h : ¬ RefersTo idNames text)
    (ids ids' : ProjectIds) :
    substitute (.forProject o ids') text = substitute (.forProject o ids) text := by
  refine substitute_congr fun access haccess => ?_
  have hother : ∀ idName ∈ idNames, Text.upper (accessName access) ≠ Text.upper idName := by
    intro idName hidName heq
    exact h ⟨access, haccess, idName, hidName, heq⟩
  rw [get?_forProject hother, get?_forProject hother]

end Scaffold
