import Scaffold.Proofs.FileSystem.Parents
import Scaffold.Proofs.Manifest.Composition

set_option autoImplicit false

/-! # Displayed paths

A path of a manifest is displayed with slashes between its segments. A well-formed path is read
again from its display (`parse?_display`), also with a star behind it, and only then does the text
end in a slash and a star. -/

namespace Scaffold

namespace PathSpec

/-- A text that is read as one segment of a path and can stand between colons. -/
structure IsReadable (segment : String) : Prop where
  ne_empty : segment ≠ ""
  trimmed : Text.trim segment = segment
  ne_star : segment ≠ "*"
  slash_not_mem : '/' ∉ segment.toList
  colon_not_mem : ':' ∉ segment.toList

/-- A path with segments that are read as they are. -/
structure WellFormed (spec : PathSpec) : Prop where
  ne_nil : spec.segments ≠ []
  isReadable : ∀ segment ∈ spec.segments, IsReadable segment

instance (segment : String) : Decidable (IsReadable segment) :=
  decidable_of_iff (segment ≠ "" ∧ Text.trim segment = segment ∧ segment ≠ "*" ∧
      '/' ∉ segment.toList ∧ ':' ∉ segment.toList)
    ⟨fun ⟨h₁, h₂, h₃, h₄, h₅⟩ => ⟨h₁, h₂, h₃, h₄, h₅⟩,
      fun ⟨h₁, h₂, h₃, h₄, h₅⟩ => ⟨h₁, h₂, h₃, h₄, h₅⟩⟩

instance (spec : PathSpec) : Decidable spec.WellFormed :=
  decidable_of_iff (spec.segments ≠ [] ∧ ∀ segment ∈ spec.segments, IsReadable segment)
    ⟨fun ⟨h₁, h₂⟩ => ⟨h₁, h₂⟩, fun ⟨h₁, h₂⟩ => ⟨h₁, h₂⟩⟩

end PathSpec

/-! ## Pieces with slashes between them -/

namespace Path

theorem unsplit_append_singleton {before : List (List Char)} (h : before ≠ []) (last : List Char) :
    unsplit (before ++ [last]) = unsplit before ++ '/' :: last := by
  induction before with
  | nil => exact absurd rfl h
  | cons piece before ih =>
    rw [List.cons_append, unsplit_cons_of_ne_nil piece (by simp)]
    by_cases hbefore : before = []
    · rw [hbefore]
      rfl
    · rw [ih hbefore, unsplit_cons_of_ne_nil piece hbefore, List.append_assoc, List.cons_append]

theorem mem_unsplit {c : Char} {pieces : List (List Char)} (h : c ∈ unsplit pieces) :
    c = '/' ∨ ∃ piece ∈ pieces, c ∈ piece := by
  induction pieces with
  | nil => exact absurd h List.not_mem_nil
  | cons piece pieces ih =>
    by_cases hpieces : pieces = []
    · rw [hpieces] at h
      exact Or.inr ⟨piece, List.mem_cons_self, h⟩
    · rw [unsplit_cons_of_ne_nil piece hpieces, List.mem_append, List.mem_cons] at h
      rcases h with hpiece | rfl | hrest
      · exact Or.inr ⟨piece, List.mem_cons_self, hpiece⟩
      · exact Or.inl rfl
      · rcases ih hrest with hslash | ⟨other, hother, hmem⟩
        · exact Or.inl hslash
        · exact Or.inr ⟨other, List.mem_cons_of_mem _ hother, hmem⟩

/-- A text of pieces begins as its first piece does. -/
theorem head?_unsplit_cons {piece : List Char} (h : piece ≠ []) (pieces : List (List Char)) :
    (unsplit (piece :: pieces)).head? = piece.head? := by
  obtain ⟨rest, hrest⟩ := unsplit_begins [piece] pieces
  rw [List.singleton_append] at hrest
  rw [← hrest]
  exact List.head?_append_of_ne_nil _ h

/-- A text of pieces ends as its last piece does. -/
theorem getLast?_unsplit_append_singleton {last : List Char} (h : last ≠ [])
    (before : List (List Char)) : (unsplit (before ++ [last])).getLast? = last.getLast? := by
  by_cases hbefore : before = []
  · rw [hbefore]
    rfl
  · rw [unsplit_append_singleton hbefore, List.getLast?_append_of_ne_nil _ (List.cons_ne_nil _ _),
      List.getLast?_cons_of_ne_nil h]

/-- Pieces that are trimmed and not empty make up a trimmed text. -/
theorem trimChars_unsplit {pieces : List (List Char)}
    (h : ∀ piece ∈ pieces, piece ≠ [] ∧ Text.trimChars piece = piece) :
    Text.trimChars (unsplit pieces) = unsplit pieces := by
  rw [Text.trimChars_eq_self_iff]
  constructor
  · intro c hc
    cases pieces with
    | nil => simp [unsplit] at hc
    | cons piece pieces =>
      obtain ⟨hne, htrim⟩ := h piece List.mem_cons_self
      rw [head?_unsplit_cons hne] at hc
      exact ((Text.trimChars_eq_self_iff piece).1 htrim).1 c hc
  · intro c hc
    rcases List.eq_nil_or_concat pieces with rfl | ⟨before, last, rfl⟩
    · simp [unsplit] at hc
    rw [List.concat_eq_append] at h hc
    obtain ⟨hne, htrim⟩ := h last (by simp)
    rw [getLast?_unsplit_append_singleton hne] at hc
    exact ((Text.trimChars_eq_self_iff last).1 htrim).2 c hc

end Path

namespace PathSpec

theorem toList_display (spec : PathSpec) :
    spec.display.toList = Path.unsplit (spec.segments.map String.toList) := by
  unfold display
  rw [String.toList_intercalate]
  exact Path.intercalate_slash _

theorem not_mem_display {spec : PathSpec} {c : Char} (hc : c ≠ '/')
    (h : ∀ segment ∈ spec.segments, c ∉ segment.toList) : c ∉ spec.display.toList := by
  rw [toList_display]
  intro hmem
  rcases Path.mem_unsplit hmem with hslash | ⟨piece, hpiece, hmem⟩
  · exact hc hslash
  · obtain ⟨segment, hsegment, rfl⟩ := List.mem_map.1 hpiece
    exact h segment hsegment hmem

namespace WellFormed

variable {spec : PathSpec}

/-- What the pieces of a displayed path are like. -/
theorem piece (h : spec.WellFormed) {piece : List Char}
    (hpiece : piece ∈ spec.segments.map String.toList) :
    piece ≠ [] ∧ piece ≠ ['*'] ∧ Text.trimChars piece = piece ∧ '/' ∉ piece := by
  obtain ⟨segment, hsegment, rfl⟩ := List.mem_map.1 hpiece
  have hreadable := h.isReadable segment hsegment
  have htrimmed := hreadable.trimmed
  rw [← String.toList_inj, Text.trim, String.toList_ofList] at htrimmed
  refine ⟨by simpa using hreadable.ne_empty, ?_, htrimmed, hreadable.slash_not_mem⟩
  intro hstar
  exact hreadable.ne_star (String.toList_inj.1 hstar)

theorem splitChars_display (h : spec.WellFormed) :
    Text.splitChars '/' spec.display.toList = spec.segments.map String.toList := by
  rw [toList_display]
  exact Path.splitChars_unsplit (by simpa using h.ne_nil) fun piece hpiece => (h.piece hpiece).2.2.2

theorem segmentChars_display (h : spec.WellFormed) :
    segmentChars spec.display.toList = spec.segments.map String.toList := by
  have htrim : (spec.segments.map String.toList).map Text.trimChars =
      spec.segments.map String.toList := by
    conv_rhs => rw [← List.map_id (spec.segments.map String.toList)]
    exact List.map_congr_left fun piece hpiece => (h.piece hpiece).2.2.1
  unfold segmentChars
  rw [h.splitChars_display, htrim, List.filter_eq_self]
  intro piece hpiece
  obtain ⟨hempty, hstar, -, -⟩ := h.piece hpiece
  simp [isSegment, hempty, hstar]

theorem parse?_display (h : spec.WellFormed) : parse? spec.display = some spec := by
  have hsegments : segmentsOf spec.display = spec.segments := by
    rw [segmentsOf_eq_map, h.segmentChars_display, List.map_map]
    simp
  rw [parse?_eq_segmentsOf, hsegments, if_neg h.ne_nil]

/-- A star behind a path changes nothing about its segments. -/
theorem parse?_display_star (h : spec.WellFormed) : parse? (spec.display ++ "/*") = some spec :=
  (parse?_append_slash_star spec.display).trans h.parse?_display

theorem trimChars_display (h : spec.WellFormed) :
    Text.trimChars spec.display.toList = spec.display.toList := by
  rw [toList_display]
  refine Path.trimChars_unsplit fun piece hpiece => ?_
  obtain ⟨hne, -, htrim, -⟩ := h.piece hpiece
  exact ⟨hne, htrim⟩

/-- No displayed path ends in a slash and a star, since no segment is a star. -/
theorem display_ne_star (h : spec.WellFormed) (path : String) : spec.display ≠ path ++ "/*" := by
  intro hstar
  have hchars : (path ++ "/*").toList = path.toList ++ '/' :: ['*'] := by simp
  have hsplit := h.splitChars_display
  rw [hstar, hchars, Text.splitChars_append_sep] at hsplit
  have hmem : ['*'] ∈ spec.segments.map String.toList := by
    rw [← hsplit]
    exact List.mem_append_right _ (by decide)
  exact (h.piece hmem).2.1 rfl

end WellFormed

end PathSpec

end Scaffold
