import Scaffold.Proofs.FileSystem.Growth

set_option autoImplicit false

/-! # Making directories

Making a directory with its missing ancestors puts one empty directory after the other at a free
name, so a property that each of these keeps is kept by the whole (`makeLineage_preserves`). It
succeeds only if the path leads to a directory afterwards, and where it leads to one already
nothing happens. -/

namespace Scaffold

namespace FileSystem

variable {s t : FileSystem} {top : List String}

/-! ## At a free name -/

/-- Once something is at a free name, the path leads to it. -/
theorem IsFree.follow_of_growsBelow {here pieces directory : List String} {name : String}
    (h : s.IsFree here pieces directory name) (hgrows : GrowsBelow top s t)
    (hthere : t.lookup (directory ++ [name]) ≠ none) :
    t.follow here pieces = .ok (.found (directory ++ [name])) := by
  obtain ⟨before, rfl, hbefore⟩ := h.exists_eq
  have hdirectory := hgrows.directory directory h.lookup_directory
  rw [follow_append_of_found (follow_found_of_growsBelow hgrows hbefore),
    follow_name hdirectory h.isStep h.short hthere]
  rfl

theorem isFree_of_resolvePieces {fs : FileSystem} {path : String}
    {pieces directory : List String} {name : String}
    (h : fs.resolvePieces path pieces = .ok (.free directory name)) :
    Accepts path ∧ fs.IsFree (fs.start path) pieces directory name := by
  obtain ⟨haccepts, hfollow⟩ := resolvePieces_eq_ok_iff.1 h
  exact ⟨haccepts, isFree_of_follow hfollow⟩

/-- A directory that is put at a free name shows there and nowhere else. -/
theorem IsFree.lookup_put_directory {fs : FileSystem} {here pieces directory : List String}
    {name : String} (h : fs.IsFree here pieces directory name) (other : List String) :
    (fs.put (directory ++ [name]) (.directory [])).lookup other =
      if other = directory ++ [name] then some .directory else fs.lookup other :=
  lookup_put fs h.lookup_directory (by simp [h.lookup_place]) rfl other

theorem IsFree.addsDirectories_put {fs : FileSystem} {here pieces directory : List String}
    {name : String} (h : fs.IsFree here pieces directory name)
    (htop : top <+: directory ++ [name]) :
    AddsDirectories top fs (fs.put (directory ++ [name]) (.directory [])) := by
  have hlookup := h.lookup_put_directory
  refine ⟨rfl, fun place hplace => ?_, fun place hplace => ?_⟩
  · have hne : place ≠ directory ++ [name] := by
      rintro rfl
      exact hplace h.lookup_place
    rw [hlookup, if_neg hne]
  · rw [hlookup] at hplace ⊢
    split_ifs at hplace ⊢ with hsame
    · exact ⟨rfl, hsame ▸ htop⟩
    · exact absurd rfl hplace

/-! ## One directory -/

theorem makeDirectory_cases (fs : FileSystem) (path : String) :
    (∃ cause, fs.makeDirectory path = (.error cause, fs)) ∨
      ∃ directory name, fs.resolvePieces path (pieces path) = .ok (.free directory name) ∧
        fs.makeDirectory path = (.ok (), fs.put (directory ++ [name]) (.directory [])) := by
  unfold makeDirectory
  cases fs.resolvePieces path (pieces path) with
  | error cause => exact Or.inl ⟨cause, rfl⟩
  | ok target =>
    cases target with
    | found place => exact Or.inl ⟨_, rfl⟩
    | free directory name => exact Or.inr ⟨directory, name, rfl, rfl⟩

theorem resolvePieces_of_makeDirectory_notFound {fs : FileSystem} {path : String}
    (h : fs.makeDirectory path = (.error (.system .notFound), fs)) :
    fs.resolvePieces path (pieces path) = .error (.system .notFound) := by
  unfold makeDirectory at h
  split at h
  · next cause hcause => rwa [Except.error.inj (Prod.mk.inj h).1] at hcause
  · simp at h
  · simp at h

/-- A directory that was made is there. -/
theorem isDirectory_of_makeDirectory {fs made : FileSystem} {path : String}
    (h : fs.makeDirectory path = (.ok (), made)) : made.isDirectory path = true := by
  rcases makeDirectory_cases fs path with ⟨cause, hcause⟩ | ⟨directory, name, hfree, hput⟩
  · simp [hcause] at h
  · obtain ⟨haccepts, hfree⟩ := isFree_of_resolvePieces hfree
    rw [hput] at h
    obtain rfl := (Prod.mk.inj h).2
    have hlookup := hfree.lookup_put_directory (directory ++ [name])
    rw [if_pos rfl] at hlookup
    have hadds : AddsDirectories [] fs _ := hfree.addsDirectories_put List.nil_prefix
    refine isDirectory_iff.2 ⟨haccepts, directory ++ [name], ?_, hlookup⟩
    exact hfree.follow_of_growsBelow hadds.growsBelow (by simp [hlookup])

/-- What stands in the way of making a directory stays there, unless something is missing. -/
theorem resolvePieces_of_makeDirectory (hgrows : GrowsBelow top s t) {path : String}
    {cause : Cause} (h : s.makeDirectory path = (.error cause, s))
    (hcause : cause ≠ .system .notFound) :
    t.resolvePieces path (pieces path) = s.resolvePieces path (pieces path) := by
  unfold makeDirectory at h
  refine resolvePieces_of_growsBelow hgrows (fun hs => ?_) (fun directory name hs => ?_)
  · rw [hs] at h
    exact hcause (Except.error.inj (Prod.mk.inj h).1).symm
  · rw [hs] at h
    simp at h

theorem makeDirectory_of_growsBelow (hgrows : GrowsBelow top s t) {path : String} {cause : Cause}
    (h : s.makeDirectory path = (.error cause, s)) (hcause : cause ≠ .system .notFound) :
    t.makeDirectory path = (.error cause, t) := by
  have hsame := resolvePieces_of_makeDirectory hgrows h hcause
  unfold makeDirectory at h ⊢
  rw [hsame]
  cases hs : s.resolvePieces path (pieces path) with
  | error other =>
    rw [hs] at h
    rw [Except.error.inj (Prod.mk.inj h).1]
  | ok target =>
    cases target with
    | found place =>
      rw [hs] at h
      rw [← Except.error.inj (Prod.mk.inj h).1]
    | free directory name =>
      rw [hs] at h
      simp at h

/-! ## A directory and its ancestors -/

/-- What every single directory that is made keeps is kept by making all that are missing. -/
theorem makeLineage_preserves {P : FileSystem → Prop} (lineage : List String) (fs : FileSystem)
    (hput : ∀ (between : FileSystem) (path : String) (directory : List String) (name : String),
      path ∈ lineage → P between →
        between.resolvePieces path (pieces path) = .ok (.free directory name) →
        P (between.put (directory ++ [name]) (.directory [])))
    (h : P fs) : P (fs.makeLineage lineage).2 := by
  have hone : ∀ (between made : FileSystem) (path : String), path ∈ lineage → P between →
      between.makeDirectory path = (.ok (), made) → P made := by
    intro between made path hpath hbetween hmade
    rcases makeDirectory_cases between path with ⟨cause, hcause⟩ | ⟨directory, name, hfree, hdone⟩
    · simp [hcause] at hmade
    · rw [hdone] at hmade
      rw [← (Prod.mk.inj hmade).2]
      exact hput between path directory name hpath hbetween hfree
  induction lineage with
  | nil => exact h
  | cons path ancestors ih =>
    have habove : P (fs.makeLineage ancestors).2 := by
      refine ih (fun between other directory name hother => ?_)
        (fun between made other hother => hone between made other (List.mem_cons_of_mem _ hother))
      exact hput between other directory name (List.mem_cons_of_mem _ hother)
    unfold makeLineage
    split
    · exact h
    · split
      · next made hmade => exact hone fs made path List.mem_cons_self h hmade
      · split
        · split
          · next cause below hbelow => rwa [hbelow] at habove
          · next below hbelow =>
            rw [hbelow] at habove
            split
            · next made hmade => exact hone below made path List.mem_cons_self habove hmade
            · exact habove
        · exact h

/-- Directories are added where the ancestors have free names. -/
theorem addsDirectories_makeLineage (lineage : List String) (fs : FileSystem)
    (htop : ∀ (between : FileSystem) (path : String) (directory : List String) (name : String),
      path ∈ lineage → AddsDirectories top fs between →
        between.resolvePieces path (pieces path) = .ok (.free directory name) →
        top <+: directory ++ [name]) :
    AddsDirectories top fs (fs.makeLineage lineage).2 := by
  refine makeLineage_preserves (P := AddsDirectories top fs) lineage fs ?_
    (AddsDirectories.refl top fs)
  intro between path directory name hpath hbetween hresolve
  have hfree := (isFree_of_resolvePieces hresolve).2
  exact hbetween.trans
    (hfree.addsDirectories_put (htop between path directory name hpath hbetween hresolve))

theorem addsDirectories_makeDirectories (fs : FileSystem) (path : String) :
    AddsDirectories [] fs (fs.makeDirectories path).2 :=
  addsDirectories_makeLineage _ fs fun _ _ _ _ _ _ _ => List.nil_prefix

theorem addsDirectories_makeParent (fs : FileSystem) (path : String) :
    AddsDirectories [] fs (fs.makeParent path).2 := by
  unfold makeParent
  split
  · exact addsDirectories_makeDirectories fs _
  · exact AddsDirectories.refl [] fs

/-- It only succeeds if the directory is there afterwards. -/
theorem isDirectory_of_makeLineage {fs made : FileSystem} {path : String}
    {ancestors : List String} (h : fs.makeLineage (path :: ancestors) = (.ok (), made))
    (hpath : path ≠ "") : made.isDirectory path = true := by
  unfold makeLineage at h
  rw [if_neg hpath] at h
  split at h
  · next made' hmade =>
    rw [← (Prod.mk.inj h).2]
    exact isDirectory_of_makeDirectory hmade
  · split_ifs at h with hcause hdirectory
    · split at h
      · simp at h
      · split at h
        · next made' hmade =>
          rw [← (Prod.mk.inj h).2]
          exact isDirectory_of_makeDirectory hmade
        · split_ifs at h with hdirectory
          · rwa [← (Prod.mk.inj h).2]
          · simp at h
    · rwa [← (Prod.mk.inj h).2]
    · simp at h

/-- Nothing happens where the directory is there. -/
theorem makeLineage_of_isDirectory {fs : FileSystem} {path : String}
    (h : fs.isDirectory path = true) (ancestors : List String) :
    fs.makeLineage (path :: ancestors) = (.ok (), fs) := by
  obtain ⟨haccepts, place, hplace, -⟩ := isDirectory_iff.1 h
  have hmake : fs.makeDirectory path = (.error (.system .alreadyExists), fs) := by
    unfold makeDirectory
    rw [resolvePieces_eq_ok_iff.2 ⟨haccepts, hplace⟩]
  unfold makeLineage
  rw [if_neg haccepts.2.1, hmake]
  simp [h]

end FileSystem

end Scaffold
