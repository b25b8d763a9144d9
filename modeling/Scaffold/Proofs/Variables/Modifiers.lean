import Mathlib.Data.List.TakeWhile
import Scaffold.Proofs.Text.Lowering
import Scaffold.Variables

set_option autoImplicit false

/-! # Both changes of case

An access can ask for both changes of case. They are then both made, upper case first, whatever the
order of the letters and whatever else stands among them. So lower case has the last word, but it may
find another letter than the value had: the value comes out as if lower case alone had been asked for
if and only if lower case restores it (`resolve_upper_lower`). -/

namespace Scaffold

namespace CaseChange

/-- The order of the letters does not matter, nor does anything else that stands among them. -/
theorem requested_of_both {modifiers : List Char} (hupper : 'U' ∈ modifiers)
    (hlower : 'L' ∈ modifiers) : requested modifiers = [.upper, .lower] := by
  have hletters : ∀ change ∈ all, modifiers.contains change.letter = true := by
    intro change _
    rw [List.contains_iff_mem]
    cases change with
    | upper => exact hupper
    | lower => exact hlower
  exact List.filter_eq_self.2 hletters

end CaseChange

namespace VariableTable

variable {vars : VariableTable} {name modifiers : String}

/-- The name of an access ends at its first colon. -/
theorem accessParts_append_colon {name : List Char} (h : ':' ∉ name) (modifiers : List Char) :
    accessParts (name ++ ':' :: modifiers) = (name, modifiers) := by
  have hname : ∀ c ∈ name, (c != ':') = true := by
    intro c hc
    rw [bne_iff_ne]
    rintro rfl
    exact h hc
  unfold accessParts
  rw [List.takeWhile_append_of_pos hname, List.dropWhile_append_of_pos hname]
  simp

theorem resolve_append_colon (h : ':' ∉ name.toList) (modifiers : String) :
    vars.resolve (name ++ ":" ++ modifiers) = (vars.get? name).map fun value =>
      (CaseChange.requested modifiers.toList).foldl (fun text change => change.apply text) value := by
  have haccess : (name ++ ":" ++ modifiers).toList = name.toList ++ ':' :: modifiers.toList := by
    rw [String.toList_append, String.toList_append, List.append_assoc]
    rfl
  unfold resolve
  rw [haccess, accessParts_append_colon h]
  dsimp only
  rw [String.ofList_toList]

theorem resolve_lower (h : ':' ∉ name.toList) :
    vars.resolve (name ++ ":L") = (vars.get? name).map Text.lower := by
  have haccess : name ++ ":L" = name ++ ":" ++ "L" := by
    rw [String.append_assoc]
    rfl
  have hrequested : CaseChange.requested "L".toList = [.lower] := by decide
  rw [haccess, resolve_append_colon h, hrequested]
  rfl

/-- An access that asks for both changes of case gives the lower case of the value's upper case. That
    is what lower case alone gives if and only if the value comes out alike at each letter: lower
    case restores the letter from its upper case, and a small sigma has the form that its place in
    the word asks for. -/
theorem resolve_upper_lower (vars : VariableTable) (name modifiers : String)
    (hname : ':' ∉ name.toList) (hupper : 'U' ∈ modifiers.toList)
    (hlower : 'L' ∈ modifiers.toList) :
    vars.resolve (name ++ ":" ++ modifiers) =
        (vars.get? name).map (fun value => Text.lower (Text.upper value)) ∧
      (vars.resolve (name ++ ":" ++ modifiers) = vars.resolve (name ++ ":L") ↔
        ∀ value, vars.get? name = some value → Text.LowersAlike [] value.toList) := by
  have hboth : vars.resolve (name ++ ":" ++ modifiers) =
      (vars.get? name).map fun value => Text.lower (Text.upper value) := by
    rw [resolve_append_colon hname, CaseChange.requested_of_both hupper hlower]
    rfl
  refine ⟨hboth, ?_⟩
  rw [hboth, resolve_lower hname]
  cases vars.get? name with
  | none => simp
  | some value => simp [Text.lower_upper_iff]

/-- Capitals with a sigma inside the word and one at its end. -/
def sisyphusTable : VariableTable :=
  initial.set "Motto" "ΣΊΣΥΦΟΣ 1"

theorem resolve_upper_lower_sisyphus :
    ':' ∉ "Motto".toList ∧ 'U' ∈ "xL:U".toList ∧ 'L' ∈ "xL:U".toList ∧
    sisyphusTable.resolve ("Motto" ++ ":" ++ "xL:U") = some "σίσυφος 1" ∧
    (sisyphusTable.resolve ("Motto" ++ ":" ++ "xL:U") = sisyphusTable.resolve ("Motto" ++ ":L") ↔
      ∀ value, sisyphusTable.get? "Motto" = some value → Text.LowersAlike [] value.toList) := by
  have hname : ':' ∉ "Motto".toList := by decide
  have hupper : 'U' ∈ "xL:U".toList := by decide
  have hlower : 'L' ∈ "xL:U".toList := by decide
  obtain ⟨hvalue, hiff⟩ := resolve_upper_lower sisyphusTable "Motto" "xL:U" hname hupper hlower
  refine ⟨hname, hupper, hlower, ?_, hiff⟩
  rw [hvalue]
  decide +kernel

/-- Lower case does not have the last word over a sharp s: its upper case is two letters, and they
    stay two. -/
theorem exists_resolve_upper_lower_ne :
    ∃ (vars : VariableTable) (name modifiers : String), ':' ∉ name.toList ∧
      'U' ∈ modifiers.toList ∧ 'L' ∈ modifiers.toList ∧
      vars.resolve (name ++ ":" ++ modifiers) = some "strasse" ∧
      vars.resolve (name ++ ":L") = some "straße" :=
  ⟨initial.set "Street" "Straße", "Street", "UL", by decide, by decide, by decide,
    by decide +kernel, by decide +kernel⟩

end VariableTable

end Scaffold
