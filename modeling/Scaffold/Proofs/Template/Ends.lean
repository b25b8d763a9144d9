import Scaffold.Proofs.Template.Reading

set_option autoImplicit false

/-! # The ends of a template text

A character that plays no part in references stands for itself at either end of a text: in front of
a text nothing has been opened yet, and behind it nothing is closed or opened any more. Other than
that, what a text stands for can only begin with a character that the value of a reference begins
with (`head?_value_read_iff`). -/

namespace Scaffold

namespace Template

variable {c : Char}

/-- Whether the character plays no part in references. -/
def IsInert (c : Char) : Prop :=
  c ≠ '$' ∧ c ≠ '{' ∧ c ≠ '}'

instance (c : Char) : Decidable (IsInert c) :=
  inferInstanceAs (Decidable (_ ∧ _))

theorem value_read_cons_of_ne (vars : VariableTable) (h : c ≠ '$') (text : List Char) :
    (read (c :: text)).value vars = c :: (read text).value vars :=
  value_read_source_append vars (.char c) h

/-- What a reading that is not finished yet stands for, with one more character behind it. -/
theorem value_finish_step (vars : VariableTable) (h : IsInert c) (p : Progress) :
    (p.step c).finish.value vars = p.finish.value vars ++ [c] := by
  obtain ⟨hdollar, hopen, hclose⟩ := h
  obtain ⟨pieces, mode⟩ := p
  cases mode with
  | text =>
    simp [Progress.step, Progress.push, Progress.finish, Reading.value, Mode.tail, Tail.value,
      Piece.value, hdollar]
  | dollar =>
    simp [Progress.step, Progress.push, Progress.finish, Reading.value, Mode.tail, Tail.value,
      Piece.value, hdollar, hopen]
  | brace =>
    simp [Progress.step, Progress.push, Progress.finish, Reading.value, Mode.tail, Tail.value,
      Piece.value, hdollar, hopen]
  | inside access =>
    simp [Progress.step, Progress.finish, Reading.value, Mode.tail, Tail.value, hclose]
  | closing access =>
    simp [Progress.step, Progress.finish, Reading.value, Mode.tail, Tail.value, hclose]

theorem value_read_append_singleton (vars : VariableTable) (h : IsInert c) (text : List Char) :
    (read (text ++ [c])).value vars = (read text).value vars ++ [c] := by
  unfold read
  rw [List.foldl_append]
  exact value_finish_step vars h _

/-- What the text stands for begins with `c`: the text itself does, or a reference whose value does,
    behind nothing but references that stand for nothing. -/
inductive ShowsFirst (vars : VariableTable) (c : Char) : List Char → Prop
  | char (rest : List Char) : ShowsFirst vars c (c :: rest)
  | value (access rest : List Char) (hfits : ¬ Closes (access ++ ['}']))
    (hvalue : ((Piece.reference access).value vars).head? = some c) :
    ShowsFirst vars c ((Piece.reference access).source ++ rest)
  | blank (access : List Char) {rest : List Char} (hfits : ¬ Closes (access ++ ['}']))
    (hvalue : (Piece.reference access).value vars = []) (hrest : ShowsFirst vars c rest) :
    ShowsFirst vars c ((Piece.reference access).source ++ rest)

theorem head?_value_of_showsFirst {vars : VariableTable} (h : c ≠ '$') {text : List Char}
    (hshows : ShowsFirst vars c text) : ((read text).value vars).head? = some c := by
  induction hshows with
  | char rest =>
    rw [value_read_cons_of_ne vars h]
    rfl
  | value access rest hfits hvalue =>
    rw [value_read_source_append vars (.reference access) hfits, List.head?_append, hvalue]
    rfl
  | blank access hfits hvalue hrest ih =>
    rw [value_read_source_append vars (.reference access) hfits, hvalue]
    exact ih

theorem showsFirst_of_reads {vars : VariableTable} (h : c ≠ '$') {text : List Char} {r : Reading}
    (hreads : Reads text r) (hhead : (r.value vars).head? = some c) : ShowsFirst vars c text := by
  induction hreads with
  | tail t ht =>
    -- a tail is empty or begins with a dollar sign
    cases t with
    | none => simp [Reading.value, Tail.value] at hhead
    | _ => exact absurd (Option.some.inj hhead).symm h
  | @piece piece rest r hfits hrest ih =>
    have hvalue : Reading.value vars ⟨piece :: r.pieces, r.tail⟩ =
        piece.value vars ++ r.value vars := by
      simp [Reading.value]
    rw [hvalue] at hhead
    cases piece with
    | char d =>
      obtain rfl := Option.some.inj hhead
      exact .char rest
    | reference access =>
      cases hblank : (Piece.reference access).value vars with
      | nil =>
        rw [hblank] at hhead
        exact .blank access hfits hblank (ih hhead)
      | cons d value =>
        rw [hblank] at hhead
        obtain rfl := Option.some.inj hhead
        exact .value access rest hfits (by rw [hblank]; rfl)
    | _ => exact absurd (Option.some.inj hhead).symm h

theorem head?_value_read_iff (vars : VariableTable) (h : c ≠ '$') (text : List Char) :
    ((read text).value vars).head? = some c ↔ ShowsFirst vars c text := by
  obtain ⟨r, hr⟩ := exists_reads text
  refine ⟨fun hhead => ?_, head?_value_of_showsFirst h⟩
  rw [← hr.eq_read] at hhead
  exact showsFirst_of_reads h hr hhead

end Template

theorem toList_substitute (vars : VariableTable) (text : List Char) :
    (substitute vars (String.ofList text)).toList = (Template.read text).value vars := by
  unfold substitute
  rw [String.toList_ofList, String.toList_ofList]

/-- The first character of a text stays unless it is a dollar sign. -/
theorem head?_substitute (vars : VariableTable) {c : Char} (h : c ≠ '$') (text : List Char) :
    (substitute vars (String.ofList (c :: text))).toList.head? = some c := by
  rw [toList_substitute, Template.value_read_cons_of_ne vars h]
  rfl

theorem toList_substitute_append_singleton (vars : VariableTable) {c : Char}
    (h : Template.IsInert c) (text : List Char) :
    (substitute vars (String.ofList (text ++ [c]))).toList =
      (substitute vars (String.ofList text)).toList ++ [c] := by
  rw [toList_substitute, toList_substitute, Template.value_read_append_singleton vars h]

end Scaffold
