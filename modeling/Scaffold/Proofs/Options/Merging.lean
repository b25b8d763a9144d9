import Mathlib.Data.List.Induction
import Scaffold.Options.Draft

set_option autoImplicit false

/-! # Layers of drafts

Laying drafts over one another is told by the values that are given for each field, the lowest layer
first: a field ends as the last one that is accepted, and as the first one if none is (`settled`).
Putting more values behind the others is the same as laying what they settle to over what the others
do (`settled_append`), so merging takes after putting lists together: it may be grouped in any way,
and the empty draft changes nothing (`merge_layers`). -/

namespace Scaffold

namespace Draft

/-! ## The values of one field -/

/-- What is left of the values that are given for a field, the lowest layer first: the last one that
    is accepted, or the first one if none is. -/
def settled (isValid : String → Bool) (values : List String) : Option String :=
  (values.filter isValid).getLast?.or values.head?

theorem settled_toList (isValid : String → Bool) (value : Option String) :
    settled isValid value.toList = value := by
  cases value with
  | none => rfl
  | some text =>
    show settled isValid [text] = some text
    cases htext : isValid text <;> simp [settled, htext]

/-- A field that accepts every value keeps the last one. -/
theorem settled_of_forall {isValid : String → Bool} (h : ∀ value, isValid value = true)
    (values : List String) : settled isValid values = values.getLast? := by
  have hall : values.filter isValid = values := List.filter_eq_self.2 fun value _ => h value
  unfold settled
  rw [hall]
  cases values with
  | nil => rfl
  | cons value values => rw [List.getLast?_cons, Option.some_or]

/-- If none of the values is accepted, the first one stays. -/
theorem settled_of_filter_eq_nil {isValid : String → Bool} {values : List String}
    (h : values.filter isValid = []) : settled isValid values = values.head? := by
  unfold settled
  rw [h, List.getLast?_nil, Option.none_or]

/-- The last value that is accepted stays. -/
theorem settled_of_filter_eq_append {isValid : String → Bool} {values before : List String}
    {last : String} (h : values.filter isValid = before ++ [last]) :
    settled isValid values = some last := by
  unfold settled
  rw [h, List.getLast?_concat, Option.some_or]

theorem exists_settled_cons (isValid : String → Bool) (first : String) (rest : List String) :
    ∃ value, settled isValid (first :: rest) = some value := by
  rcases List.eq_nil_or_concat ((first :: rest).filter isValid) with hnone | ⟨before, last, hlast⟩
  · exact ⟨first, settled_of_filter_eq_nil hnone⟩
  · rw [List.concat_eq_append] at hlast
    exact ⟨last, settled_of_filter_eq_append hlast⟩

/-- Values behind others settle as those of a layer over another. -/
theorem settled_append (isValid : String → Bool) (before after : List String) :
    settled isValid (before ++ after) =
      overlayValid isValid (settled isValid before) (settled isValid after) := by
  cases before with
  | nil => rfl
  | cons first rest =>
    obtain ⟨old, hold⟩ := exists_settled_cons isValid first rest
    rcases List.eq_nil_or_concat (after.filter isValid) with hnone | ⟨others, new, hlast⟩
    · -- none of the values behind is accepted, so what was there stays
      have hkept : settled isValid (first :: rest ++ after) = some old := by
        rw [← hold]
        unfold settled
        rw [List.filter_append, hnone, List.append_nil]
        rfl
      rw [hkept, hold, settled_of_filter_eq_nil hnone]
      cases after with
      | nil => rfl
      | cons value values =>
        have hvalue : isValid value = false := by
          simpa using List.filter_eq_nil_iff.1 hnone value List.mem_cons_self
        simp [overlayValid, hvalue]
    · -- the last value behind that is accepted replaces what was there
      rw [List.concat_eq_append] at hlast
      have hnew : isValid new = true := by
        have hmem : new ∈ after.filter isValid := by simp [hlast]
        exact (List.mem_filter.1 hmem).2
      have hwhole : (first :: rest ++ after).filter isValid =
          (first :: rest).filter isValid ++ others ++ [new] := by
        rw [List.filter_append, hlast, List.append_assoc]
      rw [settled_of_filter_eq_append hwhole, hold, settled_of_filter_eq_append hlast]
      simp [overlayValid, hnew]

/-- Three layers may be grouped in either way. -/
theorem overlayValid_assoc (isValid : String → Bool) (a b c : Option String) :
    overlayValid isValid (overlayValid isValid a b) c =
      overlayValid isValid a (overlayValid isValid b c) := by
  obtain ⟨as, rfl⟩ : ∃ values, settled isValid values = a := ⟨_, settled_toList isValid a⟩
  obtain ⟨bs, rfl⟩ : ∃ values, settled isValid values = b := ⟨_, settled_toList isValid b⟩
  obtain ⟨cs, rfl⟩ : ∃ values, settled isValid values = c := ⟨_, settled_toList isValid c⟩
  rw [← settled_append, ← settled_append, ← settled_append, ← settled_append, List.append_assoc]

/-! ## All fields -/

/-- Whether a value can replace another one in the field. -/
def accepts : DraftField → String → Bool
  | .orientation => isOrientation
  | .scene => isScene
  | _ => fun _ => true

/-- A value that is not asked what it means replaces any other. -/
theorem overlay_eq_overlayValid (below above : Option String) :
    overlay below above = overlayValid (fun _ => true) below above := by
  cases below <;> cases above <;> rfl

theorem get_merge (below above : Draft) (field : DraftField) :
    (below.merge above).get field =
      overlayValid (accepts field) (below.get field) (above.get field) := by
  cases field with
  | orientation => rfl
  | scene => rfl
  | _ => exact overlay_eq_overlayValid _ _

theorem merge_assoc (a b c : Draft) : (a.merge b).merge c = a.merge (b.merge c) := by
  refine ext_get fun field => ?_
  rw [get_merge, get_merge, get_merge, get_merge, overlayValid_assoc]

theorem empty_merge (d : Draft) : empty.merge d = d := by
  refine ext_get fun field => ?_
  rw [get_merge, get_empty]
  cases d.get field <;> rfl

theorem merge_empty (d : Draft) : d.merge empty = d := by
  refine ext_get fun field => ?_
  rw [get_merge, get_empty]
  cases d.get field <;> rfl

/-! ## Many layers -/

/-- The values that are given for a field in layers of drafts, the lowest layer first. -/
def givenIn (layers : List Draft) (field : DraftField) : List String :=
  layers.filterMap fun layer => layer.get field

theorem givenIn_append_singleton (layers : List Draft) (above : Draft) (field : DraftField) :
    givenIn (layers ++ [above]) field = givenIn layers field ++ (above.get field).toList := by
  unfold givenIn
  rw [List.filterMap_append]
  cases habove : above.get field <;> simp [habove]

/-- A field of merged layers is what the values given for it settle to. -/
theorem get_foldl_merge (base : Draft) (overlays : List Draft) (field : DraftField) :
    (overlays.foldl merge base).get field =
      settled (accepts field) (givenIn (base :: overlays) field) := by
  induction overlays using List.reverseRecOn with
  | nil =>
    have hbase := givenIn_append_singleton [] base field
    rw [List.nil_append] at hbase
    rw [hbase]
    exact (settled_toList _ _).symm
  | append_singleton overlays above ih =>
    rw [List.foldl_append, List.foldl_cons, List.foldl_nil, get_merge, ih, ← List.cons_append,
      givenIn_append_singleton, settled_append, settled_toList]

/-- Merging drafts is associative, and the empty draft changes nothing on either side. Of any layers
    over a base, every field but the orientation and the scene ends as the last value that is given
    for it; these two end as the last one that means something, and as the first one that is given
    if none does. -/
theorem merge_layers :
    (∀ a b c : Draft, (a.merge b).merge c = a.merge (b.merge c)) ∧
    (∀ d : Draft, empty.merge d = d ∧ d.merge empty = d) ∧
    ∀ (base : Draft) (overlays : List Draft),
      (∀ field ∉ [DraftField.orientation, .scene],
        (overlays.foldl merge base).get field = (givenIn (base :: overlays) field).getLast?) ∧
      (overlays.foldl merge base).orientation =
        settled (fun value => (Orientation.parse? value).isSome)
          (givenIn (base :: overlays) .orientation) ∧
      (overlays.foldl merge base).scene =
        settled (fun value => (Scene.parse? value).isSome) (givenIn (base :: overlays) .scene) := by
  refine ⟨merge_assoc, fun d => ⟨empty_merge d, merge_empty d⟩, fun base overlays => ⟨?_, ?_, ?_⟩⟩
  · intro field hfield
    rw [get_foldl_merge]
    refine settled_of_forall (fun value => ?_) _
    cases field with
    | orientation => simp at hfield
    | scene => simp at hfield
    | _ => rfl
  · exact get_foldl_merge base overlays .orientation
  · exact get_foldl_merge base overlays .scene

/-- An orientation that means nothing comes first, and later it gives way. -/
example : ([⟨none, none, some "A", none, some "up", none, none, none⟩,
      ⟨none, none, some "B", none, some "left", some "3d", none, none⟩,
      ⟨none, none, none, none, some "port", some "flat", none, none⟩,
      ⟨none, none, none, none, some "down", none, none, none⟩].foldl merge empty) =
    ⟨none, none, some "B", none, some "port", some "3d", none, none⟩ := by
  decide

end Draft

end Scaffold
