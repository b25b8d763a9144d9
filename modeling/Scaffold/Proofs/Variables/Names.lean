import Mathlib.Data.Finset.Card
import Mathlib.Data.List.Induction
import Scaffold.Proofs.Template.Openers
import Scaffold.Proofs.Text.Folding

set_option autoImplicit false

/-! # The names of variables

Variables are one map from names to values in which case does not count: names with the same upper
case name the same variable, whatever they are spelled like when they are set and when they are asked
for (`setAll_caseless`). The variable that was set last under a name counts; what was not set is
missing, but for the opener. -/

namespace Scaffold

namespace VariableTable

variable {vars : VariableTable} {assignments : List (String × String)} {name other : String}

/-- The value of the last assignment to a name with this upper case. -/
def lastSet (assignments : List (String × String)) (name : String) : Option String :=
  (assignments.filter fun assignment => Text.upper assignment.1 = Text.upper name).getLast?.map
    Prod.snd

/-- The assignments with their names in upper case. -/
def inUpper (assignments : List (String × String)) : List (String × String) :=
  assignments.map fun assignment => (Text.upper assignment.1, assignment.2)

/-! ## Reading -/

theorem get?_congr (h : Text.upper other = Text.upper name) : vars.get? other = vars.get? name := by
  unfold get?
  rw [h]

theorem get?_upper (name : String) : vars.get? (Text.upper name) = vars.get? name :=
  get?_congr (Text.upper_upper name)

theorem get?_initial (name : String) :
    initial.get? name = if name = opener then some opener else none := by
  unfold get? initial
  rw [Keyed.get?_insert, Keyed.get?_empty]
  refine if_congr ⟨fun h => ?_, fun h => ?_⟩ rfl rfl
  · exact Text.eq_of_upper_eq isCaseless_of_mem_opener h
  · rw [h, upper_opener]

/-! ## Setting -/

theorem set_upper (vars : VariableTable) (name value : String) :
    vars.set (Text.upper name) value = vars.set name value := by
  unfold set
  rw [Text.upper_upper]

theorem setAll_append_singleton (assignments : List (String × String)) (name value : String) :
    vars.setAll (assignments ++ [(name, value)]) = (vars.setAll assignments).set name value :=
  setAll_append assignments [(name, value)]

theorem lastSet_append_singleton (assignments : List (String × String)) (key value : String) :
    lastSet (assignments ++ [(key, value)]) name =
      if Text.upper name = Text.upper key then some value else lastSet assignments name := by
  unfold lastSet
  rw [List.filter_append]
  by_cases hkey : Text.upper key = Text.upper name
  · simp [hkey]
  · have hkey' : ¬ Text.upper name = Text.upper key := fun h => hkey h.symm
    simp [hkey, hkey']

/-- A variable has the value that was set last, or the one from before. -/
theorem get?_setAll (assignments : List (String × String)) (name : String) :
    (vars.setAll assignments).get? name = (lastSet assignments name).or (vars.get? name) := by
  induction assignments using List.reverseRecOn with
  | nil => rfl
  | append_singleton before assignment ih =>
    obtain ⟨key, value⟩ := assignment
    rw [setAll_append_singleton, get?_set, lastSet_append_singleton, ih]
    split_ifs <;> rfl

theorem setAll_inUpper (assignments : List (String × String)) :
    vars.setAll (inUpper assignments) = vars.setAll assignments := by
  unfold setAll inUpper
  rw [List.foldl_map]
  simp only [set_upper]

/-! ## Counting -/

theorem mem_keys_setAll {key : String} :
    key ∈ (vars.setAll assignments).values.keys ↔
      key ∈ vars.values.keys ∨ key ∈ assignments.map fun assignment => Text.upper assignment.1 := by
  induction assignments using List.reverseRecOn with
  | nil => simp [setAll]
  | append_singleton before assignment ih =>
    obtain ⟨name, value⟩ := assignment
    rw [setAll_append_singleton, set, Keyed.keys_insert, List.map_append]
    split_ifs with hknown
    · -- the name was there before, so it adds nothing to the keys
      rw [ih, List.mem_append, List.map_singleton, List.mem_singleton, ← or_assoc, ← ih]
      constructor
      · exact Or.inl
      · rintro (hkey | rfl)
        · exact hkey
        · exact hknown
    · rw [List.mem_append, ih, List.mem_append, List.map_singleton, or_assoc]

theorem size_setAll_initial (assignments : List (String × String)) :
    (initial.setAll assignments).size =
      (insert opener (assignments.map fun assignment => Text.upper assignment.1).toFinset).card := by
  have hkeys : (initial.setAll assignments).values.keys.toFinset =
      insert opener (assignments.map fun assignment => Text.upper assignment.1).toFinset := by
    have hinitial : initial.values.keys = [opener] := rfl
    ext key
    rw [List.mem_toFinset, mem_keys_setAll, hinitial, List.mem_singleton, Finset.mem_insert,
      List.mem_toFinset]
  have hnodup : (initial.setAll assignments).values.keys.Nodup :=
    (initial.setAll assignments).values.nodup_keys
  rw [← hkeys, List.toFinset_card_of_nodup hnodup, size, Keyed.size_eq_length_keys]

/-! ## One map -/

/-- The variables that are set on the initial table form one map from upper case names. A name has
    the value that was set last under a name with the same upper case; the opener stands for itself
    unless it was set, and no other name has a value. There are as many variables as upper case
    names, the opener among them. The case in which a name is set and asked for does not matter. -/
theorem setAll_caseless (assignments : List (String × String)) :
    (∀ name, (initial.setAll assignments).get? name =
      (lastSet assignments name).or (if name = opener then some opener else none)) ∧
    (initial.setAll assignments).size =
      (insert opener (assignments.map fun assignment => Text.upper assignment.1).toFinset).card ∧
    initial.setAll (inUpper assignments) = initial.setAll assignments ∧
    (∀ name other, Text.upper other = Text.upper name ∨ Text.SameButAsciiCase other name →
      (initial.setAll assignments).get? other = (initial.setAll assignments).get? name) ∧
    ∀ name, (initial.setAll assignments).get? (Text.upper name) =
      (initial.setAll assignments).get? name := by
  refine ⟨fun name => ?_, size_setAll_initial assignments, setAll_inUpper assignments,
    fun name other hsame => ?_, get?_upper⟩
  · rw [get?_setAll, get?_initial]
  · rcases hsame with hupper | hascii
    · exact get?_congr hupper
    · exact get?_congr (Text.upper_congr_ascii hascii)

/-- A sharp s and two capitals are one name. -/
example : (initial.setAll [("Straße", "first"), ("STRASSE", "second")]).get? "strasse" =
    some "second" := by
  decide +kernel

end VariableTable

end Scaffold
