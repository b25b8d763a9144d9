import Scaffold.Proofs.FileSystem.Names
import Scaffold.Proofs.Run.Steps

set_option autoImplicit false

/-! # Runs only grow the file system

Whether or not copies may overwrite, and whatever fails, no run takes away a directory or a file,
and what it adds it adds under proper names. -/

namespace Scaffold

open FileSystem

/-- The file system has grown, and it is well-formed if it was before. -/
structure GrowsWell (s t : FileSystem) : Prop where
  grows : GrowsBelow [] s t
  wellFormed : s.WellFormed → t.WellFormed

namespace GrowsWell

variable {s t u : FileSystem}

theorem refl (s : FileSystem) : GrowsWell s s :=
  ⟨.refl [] s, fun h => h⟩

theorem trans (h : GrowsWell s t) (h' : GrowsWell t u) : GrowsWell s u :=
  ⟨h.grows.trans h'.grows, fun hs => h'.wellFormed (h.wellFormed hs)⟩

theorem of_makeDirectories (fs : FileSystem) (path : String) :
    GrowsWell fs (fs.makeDirectories path).2 :=
  ⟨(addsDirectories_makeDirectories fs path).growsBelow, fun h => wellFormed_makeDirectories h path⟩

theorem of_makeParent (fs : FileSystem) (path : String) : GrowsWell fs (fs.makeParent path).2 := by
  unfold makeParent
  split
  · exact of_makeDirectories fs _
  · exact refl fs

theorem of_writes {path : String} {place : List String} {bytes : ByteArray}
    (hopens : s.Opens path place) (hwrites : Writes place bytes s t) : GrowsWell s t :=
  ⟨hwrites.growsBelow hopens.lookup_ne_directory List.nil_prefix, hwrites.wellFormed hopens⟩

end GrowsWell

namespace Runner

/-! ## Steps -/

theorem growsWell_copyBytes (r : Runner) (source target : String) (fs : FileSystem) :
    GrowsWell fs (r.copyBytes source target fs).2 := by
  have hparent := GrowsWell.of_makeParent fs target
  rcases copyBytes_cases r source target fs with
    ⟨-, -, hskip⟩ | ⟨-, ⟨cause, hskip⟩ | ⟨place, bytes, done, hopens, hwrites, hcopy⟩⟩
  · rw [hskip]
    exact .refl fs
  · rwa [hskip]
  · rw [hcopy]
    exact hparent.trans (.of_writes hopens hwrites)

theorem growsWell_putFile (target : String) (bytes : ByteArray) (fs : FileSystem) :
    GrowsWell fs (putFile target bytes fs).2 := by
  have hparent := GrowsWell.of_makeParent fs target
  rcases putFile_cases target bytes fs with ⟨cause, hskip⟩ | ⟨place, hopens, hput⟩
  · rwa [hskip]
  · rw [hput]
    exact hparent.trans (.of_writes hopens (hopens.writes_put bytes))

/-! ## Runs -/

theorem isInductive_growsWell (r : Runner) :
    r.IsInductive (fun _ => True) fun s _ t => GrowsWell s t where
  nil := .refl
  append _ _ _ _ _ h h' := h.trans h'
  tell _ fs _ := .refl fs
  makeCopy target fs := by
    rw [makeCopy_eq]
    exact .of_makeDirectories fs target
  copyBytes := growsWell_copyBytes r
  putFile target bytes fs _ := growsWell_putFile target bytes fs

theorem growsWell_run (r : Runner) (set : OperationSet) (fs : FileSystem) :
    GrowsWell fs (r.run set fs).2 :=
  r.isInductive_growsWell.run (fun _ _ => trivial) fs

end Runner

end Scaffold
