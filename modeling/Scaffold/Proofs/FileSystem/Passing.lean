import Scaffold.Proofs.FileSystem.Holding
import Scaffold.Proofs.FileSystem.Inside

set_option autoImplicit false

/-! # What a path text passes

On its way a path text passes the places that its beginnings lead to. Whatever is made for a path
is made where its text passes: the missing directories, and in the end what the path itself is to
hold. Where no piece leads up, these places all stand above the one that the text leads to. -/

namespace Scaffold

namespace FileSystem

variable {fs s t : FileSystem} {path : String} {place : List String}

/-- A beginning of the path text leads to the place, if it leads anywhere. -/
def Passes (fs : FileSystem) (path : String) (place : List String) : Prop :=
  ∃ before, before <+: moves (pieces path) ∧ walk (fs.start path) before = place

theorem passes_congr (h : t.workDir = s.workDir) : t.Passes path place ↔ s.Passes path place := by
  unfold Passes
  rw [start_congr h]

theorem passes_spot (fs : FileSystem) (path : String) : fs.Passes path (fs.spot path) :=
  ⟨moves (pieces path), List.prefix_rfl, walk_moves _ _⟩

/-- What a beginning of a path passes, the path passes. -/
theorem Passes.of_begins {above : String} (h : fs.Passes above place)
    (habsolute : Path.isAbsolute above.toList = Path.isAbsolute path.toList)
    (hmoves : moves (pieces above) <+: moves (pieces path)) : fs.Passes path place := by
  obtain ⟨before, hbefore, hplace⟩ := h
  rw [start_eq_start habsolute] at hplace
  exact ⟨before, hbefore.trans hmoves, hplace⟩

/-- Where no piece leads up, a path only passes what stands above the place that it leads to. -/
theorem Passes.prefix_spot (h : fs.Passes path place) (hpieces : ".." ∉ pieces path) :
    place <+: fs.spot path := by
  obtain ⟨before, ⟨after, hafter⟩, rfl⟩ := h
  have hmoves : ".." ∉ moves (pieces path) := fun hmem => hpieces (List.mem_of_mem_filter hmem)
  rw [← hafter] at hmoves
  unfold spot
  rw [← walk_moves _ (pieces path), ← hafter, walk_append]
  exact prefix_walk (fun hmem => hmoves (List.mem_append_right _ hmem)) _

theorem passes_of_makeDirectories (hnone : fs.lookup place = none)
    (hmade : (fs.makeDirectories path).2.lookup place ≠ none) : fs.Passes path place := by
  have hmakes : Makes (Path.ancestors path) fs (fs.makeDirectories path).2 := makes_makeLineage _ fs
  obtain ⟨-, -, other, hother, hleads⟩ := hmakes.changed (by rwa [hnone])
  obtain ⟨ancestors, heq, hlineage⟩ := isLineage_cons_ancestors path
  rw [heq] at hother
  obtain ⟨habsolute, hmoves⟩ := hlineage.begins_of_mem hother
  rw [hleads.eq_spot, spot_congr hmakes.addsDirectories.workDir]
  exact (passes_spot fs other).of_begins habsolute hmoves

theorem passes_of_makeParent (hnone : fs.lookup place = none)
    (hmade : (fs.makeParent path).2.lookup place ≠ none) : fs.Passes path place := by
  unfold makeParent at hmade
  split at hmade
  · next parent hparent =>
    have hparent := isParent_of_parent? hparent
    exact (passes_of_makeDirectories hnone hmade).of_begins hparent.isAbsolute hparent.moves_begin
  · exact absurd hnone hmade

end FileSystem

end Scaffold
