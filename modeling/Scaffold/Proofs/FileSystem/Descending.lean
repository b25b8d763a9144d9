import Scaffold.Proofs.FileSystem.Below

set_option autoImplicit false

/-! # Paths that do not lead up

A path text *descends* from a root if it continues the root by pieces of which none leads up. Dots
may be among them, and texts that cannot be names. -/

namespace Scaffold

namespace FileSystem

variable {fs s : FileSystem} {root path : String} {top rest : List String}

/-- The path text leads from where the text `root` leads on along the pieces, none of which leads
    up. -/
structure Descends (root path : String) (rest : List String) : Prop where
  isAbsolute : Path.isAbsolute path.toList = Path.isAbsolute root.toList
  pieces_eq : pieces path = pieces root ++ rest
  up_not_mem : ".." ∉ rest

theorem Descends.refl (root : String) : Descends root root [] :=
  ⟨rfl, (List.append_nil _).symm, List.not_mem_nil⟩

theorem Extends.descends {names : List String} (h : Extends root path names) :
    Descends root path names :=
  ⟨h.isAbsolute, h.pieces_eq, fun hmem => (h.isName _ hmem).isStep.2 rfl⟩

theorem Descends.trans {middle : String} {behind : List String} (h : Descends root middle rest)
    (h' : Descends middle path behind) : Descends root path (rest ++ behind) := by
  refine ⟨h'.isAbsolute.trans h.isAbsolute, ?_, ?_⟩
  · rw [h'.pieces_eq, h.pieces_eq, List.append_assoc]
  · rw [List.mem_append, not_or]
    exact ⟨h.up_not_mem, h'.up_not_mem⟩

/-- Relative texts without parent pieces do not lead up. -/
theorem Descends.join_relative {text : String} (h : Descends root path rest)
    (habsolute : Path.isAbsolute text.toList = false) (hup : ".." ∉ pieces text) :
    Descends root (Path.join path text) (rest ++ pieces text) := by
  refine ⟨(isAbsolute_join path habsolute).trans h.isAbsolute, ?_, ?_⟩
  · rw [pieces_join path habsolute, h.pieces_eq, List.append_assoc]
  · rw [List.mem_append, not_or]
    exact ⟨h.up_not_mem, hup⟩

theorem Descends.join {piece : String} (h : Descends root path rest) (hne : piece ≠ "")
    (hslash : '/' ∉ piece.toList) (hup : piece ≠ "..") :
    Descends root (Path.join path piece) (rest ++ [piece]) := by
  have hpieces := pieces_of_slash_not_mem hne hslash
  rw [← hpieces]
  refine h.join_relative (isAbsolute_of_slash_not_mem hslash) ?_
  rw [hpieces, List.mem_singleton]
  exact hup.symm

theorem Descends.join_empty (h : Descends root path rest) :
    Descends root (Path.join path "") rest := by
  have habsolute : Path.isAbsolute "".toList = false := by decide
  have hjoin := h.join_relative habsolute (by simp [pieces_empty])
  rwa [pieces_empty, List.append_nil] at hjoin

/-- A slash at the end asks for one more dot, and that does not lead up either. -/
theorem Descends.exists_strictPieces_eq (h : Descends root path rest) :
    ∃ behind, strictPieces path = pieces root ++ behind ∧ rest <+: behind ∧ ".." ∉ behind := by
  rcases strictPieces_eq path with heq | heq
  · exact ⟨rest, heq.trans h.pieces_eq, List.prefix_rfl, h.up_not_mem⟩
  · refine ⟨rest ++ ["."], ?_, List.prefix_append rest ["."], by simpa using h.up_not_mem⟩
    rw [heq, h.pieces_eq, List.append_assoc]

theorem Descends.isStep_of_mem_moves (h : Descends root path rest) :
    ∀ name ∈ moves rest, IsStep name := by
  intro name hname
  obtain ⟨hmem, hdot⟩ := List.mem_filter.1 hname
  refine ⟨by simpa using hdot, ?_⟩
  rintro rfl
  exact h.up_not_mem hmem

end FileSystem

end Scaffold
