import Scaffold.Proofs.FileSystem.Agreement
import Scaffold.Proofs.FileSystem.Makeable

set_option autoImplicit false

/-! # Which paths can hold a file

A path can hold a file if a file can be opened there once directories were made one by one at the
ancestors of the path, in any order (`CanHold`). Making the parent of the path first is as good as
any order: it succeeds where a file can be held, and then the file can be opened
(`exists_opens_of_canHold`). -/

namespace Scaffold

namespace FileSystem

variable {fs s t m : FileSystem} {paths names : List String} {root path parent : String}

/-- The parent of a path and all its ancestors. -/
def parents (path : String) : List String :=
  match Path.parent? path with
  | some parent => Path.ancestors parent
  | none => []

/-- A file can be opened at the path, perhaps after directories were made at its ancestors. -/
def CanHold (fs : FileSystem) (path : String) : Prop :=
  ∃ t place, Makes (parents path) fs t ∧ t.Opens path place

theorem makes_makeParent (fs : FileSystem) (path : String) :
    Makes (parents path) fs (fs.makeParent path).2 := by
  unfold makeParent parents
  cases Path.parent? path with
  | none => exact .refl
  | some parent => exact makes_makeLineage _ fs

/-- Where a file is already, one can be held. -/
theorem canHold_of_isFile (h : fs.isFile path = true) : fs.CanHold path := by
  obtain ⟨bytes, hread⟩ := isFile_iff.1 h
  obtain ⟨place, hresolve, hfile⟩ := read_eq_ok_iff.1 hread
  exact ⟨fs, place, .refl, .file hresolve hfile⟩

/-! ## Making the parent is enough -/

/-- What two ways of making directories at the same paths come to, when neither leaves anything to
    make. -/
theorem Makes.agree (hs : Makes paths fs s) (ht : Makes paths fs t)
    (hsettled : ∀ path ∈ paths, s.IsSettled path) (hsettled' : ∀ path ∈ paths, t.IsSettled path) :
    Agree (fun _ => False) s t := by
  have hst := hs.addsDirectories_of_isSettled hsettled' ht.addsDirectories
  have hts := ht.addsDirectories_of_isSettled hsettled hs.addsDirectories
  refine .of_lookup hst.workDir fun place => ?_
  by_cases hplace : s.lookup place = none
  · by_contra hne
    rw [hplace] at hne
    exact hne (hts.kept place hne ▸ hplace)
  · exact hst.kept place hplace

theorem isSettled_of_mem_ancestors (hstart : fs.lookup (fs.start path) = some .directory)
    (h : path = "" ∨ fs.isDirectory path = true) :
    ∀ other ∈ Path.ancestors path, fs.IsSettled other := by
  obtain ⟨ancestors, heq, hlineage⟩ := isLineage_cons_ancestors path
  rw [heq]
  exact fun other hother =>
    isSettled_of_isDirectory (hlineage.isDirectory_of_mem hstart h other hother)

/-- A directory that can be made is there once it was made. -/
theorem exists_makeDirectories (hstart : fs.lookup (fs.start path) = some .directory)
    (h : path = "" ∨ fs.CanMake path) :
    ∃ made, fs.makeDirectories path = (.ok (), made) ∧
      (path = "" ∨ made.isDirectory path = true) := by
  by_cases hempty : path = ""
  · rw [hempty]
    exact ⟨fs, makeDirectories_empty fs, Or.inl rfl⟩
  · obtain ⟨made, hmade⟩ :=
      (exists_makeDirectories_iff hempty hstart).2 (h.resolve_left hempty)
    exact ⟨made, hmade, Or.inr (isDirectory_of_makeDirectories hempty hmade)⟩

/-- If a file can be opened at a path, the parent is there. -/
theorem Opens.isDirectory_parent {place : List String} (hopens : fs.Opens path place)
    (h : ExtendsToName root path names) (hparent : Path.parent? path = some parent)
    (hstart : fs.lookup (fs.start path) = some .directory) :
    parent = "" ∨ fs.isDirectory parent = true := by
  have hproper := h.isProper h.ne_nil
  obtain ⟨parent', move, hparent', hlacks, hmoves⟩ := h.exists_parent
  obtain rfl := Option.some.inj (hparent.symm.trans hparent')
  obtain ⟨target, htarget⟩ : ∃ target, fs.resolve path = .ok target := by
    cases hopens with
    | file hresolve hfile => exact ⟨_, hresolve⟩
    | free hresolve => exact ⟨_, hresolve⟩
  obtain ⟨haccepts, hfollow⟩ := resolve_eq_ok_iff.1 htarget
  rw [h.strictPieces_eq, ← follow_start_moves hproper hstart] at hfollow
  by_cases hempty : parent = ""
  · exact Or.inl hempty
  · exact Or.inr
      (FileSystem.isDirectory_parent hlacks hmoves haccepts hstart hfollow hempty)

/-- Where a file can be held, the parent can be made, and then the file can be opened. -/
theorem exists_opens_of_canHold (hfs : fs.WellFormed) (h : ExtendsToName root path names)
    (hhold : fs.CanHold path) :
    ∃ made place, fs.makeParent path = (.ok (), made) ∧ made.Opens path place := by
  obtain ⟨t, place, hmakes, hopens⟩ := hhold
  have hstart : ∀ {u : FileSystem}, Makes (parents path) fs u → ∀ other,
      u.lookup (u.start other) = some .directory := fun hu other =>
    lookup_start_of_growsBelow hu.addsDirectories.growsBelow (hfs.lookup_start other)
  have hmade := makes_makeParent fs path
  obtain ⟨parent, move, hparent, -, -⟩ := h.exists_parent
  unfold makeParent parents at *
  simp only [hparent] at hmakes hmade hstart ⊢
  have hthere := hopens.isDirectory_parent h hparent (hstart hmakes path)
  have hcan : parent = "" ∨ fs.CanMake parent := hthere.imp_right fun hthere => ⟨t, hmakes, hthere⟩
  obtain ⟨made, hmake, hdone⟩ := exists_makeDirectories (hfs.lookup_start parent) hcan
  rw [hmake] at hmade
  have hagree := hmakes.agree hmade
    (isSettled_of_mem_ancestors (hstart hmakes parent) hthere)
    (isSettled_of_mem_ancestors (hstart hmade parent) hdone)
  exact ⟨made, place, hmake, hagree.opens_iff.2 hopens⟩

end FileSystem

end Scaffold
