import Mathlib.Data.List.Basic
import Scaffold.Text.Case.Mapping

set_option autoImplicit false

/-! # Case mappings as data

A case mapping moves a code point by a run, replaces it by an expansion or leaves it as it is
(`CaseMapping.image_cases`). So what holds of all that a mapping maps to can be read off its data. -/

namespace Scaffold.Text

variable {mapping : CaseMapping} {m n : Nat}

theorem CaseRun.covers_iff {run : CaseRun} :
    run.covers n = true ↔ (run.first ≤ n ∧ n ≤ run.last) ∧ (n - run.first) % run.step = 0 := by
  simp [covers]

/-- The two ways in which a code point is mapped, and the one in which it stays. -/
theorem CaseMapping.image_cases (mapping : CaseMapping) (m : Nat) :
    (∃ run ∈ mapping.runs, run.covers m = true ∧
        mapping.image m = [run.image + (m - run.first)]) ∨
      (∃ images, (m, images) ∈ mapping.expansions ∧ mapping.image m = images) ∨
      mapping.image m = [m] := by
  unfold image
  cases hrun : mapping.runs.find? (·.covers m) with
  | some run =>
    have hcovers := List.find?_some hrun
    exact Or.inl ⟨run, List.mem_of_find?_eq_some hrun, hcovers, rfl⟩
  | none =>
    cases hexpansion : mapping.expansions.lookup m with
    | some images =>
      obtain ⟨before, after, heq, -⟩ := List.lookup_eq_some_iff.1 hexpansion
      exact Or.inr (Or.inl ⟨images, by simp [heq], rfl⟩)
    | none => exact Or.inr (Or.inr rfl)

/-- A mapping whose expansions leave nothing out leaves nothing out. -/
theorem CaseMapping.apply_ne_nil (h : ∀ expansion ∈ mapping.expansions, expansion.2 ≠ [])
    (c : Char) : mapping.apply c ≠ [] := by
  unfold apply
  rw [Ne, List.map_eq_nil_iff]
  rcases mapping.image_cases c.toNat with ⟨run, -, -, himage⟩ | ⟨images, hmem, himage⟩ | himage
  · rw [himage]
    exact List.cons_ne_nil _ _
  · rw [himage]
    exact h _ hmem
  · rw [himage]
    exact List.cons_ne_nil _ _

theorem toNat_ofNat_of_isValidChar (h : n.isValidChar) : (Char.ofNat n).toNat = n := by
  unfold Char.ofNat
  rw [dif_pos h]
  rfl

/-- What is no code point becomes the null character. -/
theorem toNat_ofNat_or (n : Nat) : (Char.ofNat n).toNat = n ∨ Char.ofNat n = '\x00' := by
  by_cases hvalid : n.isValidChar
  · exact Or.inl (toNat_ofNat_of_isValidChar hvalid)
  · right
    unfold Char.ofNat
    rw [dif_neg hvalid]
    rfl

end Scaffold.Text
