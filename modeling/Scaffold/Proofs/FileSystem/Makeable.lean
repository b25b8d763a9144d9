import Scaffold.Proofs.FileSystem.Lineage

set_option autoImplicit false

/-! # Which directories can be made

A directory can be made if making it and its ancestors, one directory at a time and in any order,
can lead to its being there (`CanMake`). Making it with all its missing ancestors succeeds exactly
then (`exists_makeDirectories_iff`): it gives up only where something stands in the way for good, or
where it has made all that there is to make. Whatever comes of it, only directories that the paths
lead to are added (`Makes.changed`). -/

namespace Scaffold

namespace FileSystem

variable {fs s t m : FileSystem} {paths : List String}

/-- From `s` to `t` directories are made one by one, each at one of the paths. -/
inductive Makes (paths : List String) (s : FileSystem) : FileSystem → Prop
  | refl : Makes paths s s
  | step {t u : FileSystem} {path : String} (h : Makes paths s t) (hpath : path ∈ paths)
      (hmake : t.makeDirectory path = (.ok (), u)) : Makes paths s u

/-- The directory is there, or is so after it and its ancestors were made one by one. -/
def CanMake (fs : FileSystem) (path : String) : Prop :=
  ∃ t, Makes (Path.ancestors path) fs t ∧ t.isDirectory path = true

/-- What a directory that is made comes to. -/
theorem exists_of_makeDirectory {path : String} (h : s.makeDirectory path = (.ok (), t)) :
    ∃ directory name, Accepts path ∧ s.IsFree (s.start path) (pieces path) directory name ∧
      t = s.put (directory ++ [name]) (.directory []) := by
  rcases makeDirectory_cases s path with ⟨cause, hcause⟩ | ⟨directory, name, hresolve, hmake⟩
  · simp [h] at hcause
  · obtain ⟨haccepts, hfree⟩ := isFree_of_resolvePieces hresolve
    rw [h] at hmake
    exact ⟨directory, name, haccepts, hfree, (Prod.mk.inj hmake).2⟩

theorem addsDirectories_of_makeDirectory {path : String} (h : s.makeDirectory path = (.ok (), t)) :
    AddsDirectories [] s t := by
  obtain ⟨directory, name, -, hfree, rfl⟩ := exists_of_makeDirectory h
  exact hfree.addsDirectories_put List.nil_prefix

theorem Makes.addsDirectories (h : Makes paths s t) : AddsDirectories [] s t := by
  induction h with
  | refl => exact .refl [] s
  | step _ _ hmake ih => exact ih.trans (addsDirectories_of_makeDirectory hmake)

/-- Whatever a lineage comes to, it makes directories at its paths. -/
theorem makes_makeLineage (lineage : List String) (fs : FileSystem) :
    Makes lineage fs (fs.makeLineage lineage).2 := by
  refine makeLineage_preserves lineage fs (fun between path directory name hpath h hresolve => ?_)
    .refl
  refine h.step hpath ?_
  unfold makeDirectory
  rw [hresolve]

/-- What is not as it was is a directory now that one of the paths leads to. -/
theorem Makes.changed (h : Makes paths s t) {place : List String}
    (hplace : t.lookup place ≠ s.lookup place) :
    s.lookup place = none ∧ t.lookup place = some .directory ∧
      ∃ path ∈ paths, t.LeadsTo path place := by
  induction h with
  | refl => exact absurd rfl hplace
  | @step t u path h hpath hmake ih =>
    have hadds := addsDirectories_of_makeDirectory hmake
    obtain ⟨directory, name, -, hfree, rfl⟩ := exists_of_makeDirectory hmake
    have hlookup := hfree.lookup_put_directory place
    by_cases hsame : place = directory ++ [name]
    · subst hsame
      rw [if_pos rfl] at hlookup
      refine ⟨?_, hlookup, path, hpath, ?_⟩
      · -- what was there in the beginning would be there still
        by_contra hthere
        have hkept := h.addsDirectories.kept _ hthere
        rw [hfree.lookup_place] at hkept
        exact hthere hkept.symm
      · exact hfree.follow_of_growsBelow hadds.growsBelow (by simp [hlookup])
    · rw [if_neg hsame] at hlookup
      rw [hlookup] at hplace ⊢
      obtain ⟨hnone, hdirectory, other, hother, hleads⟩ := ih hplace
      exact ⟨hnone, hdirectory, other, hother, hleads.of_growsBelow hadds.growsBelow⟩

/-! ## Where nothing is left to make -/

/-- A path at which no directory can be made. -/
def IsSettled (m : FileSystem) (path : String) : Prop :=
  ∀ t, m.makeDirectory path ≠ (.ok (), t)

theorem isSettled_of_isDirectory {path : String} (h : path = "" ∨ m.isDirectory path = true) :
    m.IsSettled path := by
  intro t hmake
  obtain ⟨directory, name, haccepts, hfree, -⟩ := exists_of_makeDirectory hmake
  rcases h with rfl | h
  · exact haccepts.2.1 rfl
  · obtain ⟨-, place, hplace, -⟩ := isDirectory_iff.1 h
    obtain ⟨before, hbefore, hfound⟩ := hfree.exists_eq
    unfold LeadsTo at hplace
    rw [hbefore, follow_append_of_found hfound,
      follow_missing hfree.lookup_directory hfree.isStep hfree.short hfree.lookup_place] at hplace
    simp at hplace

/-- A directory that can be made now and no more later has been made by then. -/
theorem AddsDirectories.of_makeDirectory (h : AddsDirectories [] s m) {path : String}
    (hm : m.IsSettled path) (hmake : s.makeDirectory path = (.ok (), t)) :
    AddsDirectories [] t m := by
  obtain ⟨directory, name, haccepts, hfree, rfl⟩ := exists_of_makeDirectory hmake
  obtain ⟨before, hbefore, hfound⟩ := hfree.exists_eq
  have hthere : m.lookup (directory ++ [name]) ≠ none := by
    intro hnone
    have hfound' := follow_found_of_growsBelow h.growsBelow hfound
    have hdirectory := h.growsBelow.directory directory hfree.lookup_directory
    have hresolve : m.resolvePieces path (pieces path) = .ok (.free directory name) := by
      rw [resolvePieces_eq_ok_iff, start_congr h.workDir, hbefore, follow_append_of_found hfound',
        follow_missing hdirectory hfree.isStep hfree.short hnone]
      exact ⟨haccepts, rfl⟩
    exact hm (m.put (directory ++ [name]) (.directory [])) (by
      unfold makeDirectory
      rw [hresolve])
  have hmade : m.lookup (directory ++ [name]) = some .directory :=
    (h.gained _ (by rwa [hfree.lookup_place])).1
  have hlookup := hfree.lookup_put_directory
  refine ⟨h.workDir, fun place hplace => ?_, fun place hplace => ?_⟩
  · rw [hlookup] at hplace ⊢
    split_ifs at hplace ⊢ with hsame
    · rw [hsame, hmade]
    · exact h.kept place hplace
  · rw [hlookup] at hplace
    split_ifs at hplace with hsame
    · exact absurd (hsame ▸ hmade) hplace
    · exact h.gained place hplace

/-- Where nothing is left to make at the paths, all is there that can be made at them. -/
theorem Makes.addsDirectories_of_isSettled (h : Makes paths s t)
    (hm : ∀ path ∈ paths, m.IsSettled path) (hs : AddsDirectories [] s m) :
    AddsDirectories [] t m := by
  induction h with
  | refl => exact hs
  | step _ hpath hmake ih => exact ih.of_makeDirectory (hm _ hpath) hmake

/-! ## Lineages of directories -/

/-- The ancestors of a directory are directories. -/
theorem IsLineage.isDirectory_of_mem {path : String} {ancestors : List String}
    (h : IsLineage (path :: ancestors)) (hstart : fs.lookup (fs.start path) = some .directory)
    (hthere : path = "" ∨ fs.isDirectory path = true) :
    ∀ other ∈ path :: ancestors, other = "" ∨ fs.isDirectory other = true := by
  generalize heq : path :: ancestors = lineage at h
  induction h generalizing path ancestors with
  | last hmoves =>
    obtain ⟨rfl, rfl⟩ := List.cons.inj heq
    intro other hother
    rwa [List.mem_singleton.1 hother]
  | @cons path' parent above hparent h ih =>
    obtain ⟨rfl, rfl⟩ := List.cons.inj heq
    intro other hother
    rcases List.mem_cons.1 hother with rfl | hother
    · exact hthere
    have hparentStart : fs.lookup (fs.start parent) = some .directory := by
      rwa [start_eq_start hparent.isAbsolute]
    refine ih hparentStart ?_ rfl other hother
    by_cases hempty : parent = ""
    · exact Or.inl hempty
    right
    rcases hthere with rfl | hthere
    · -- the empty path has no parent
      have hbegins := hparent.begins
      simp at hbegins
      exact absurd hbegins hempty
    obtain ⟨haccepts, place, hplace, -⟩ := isDirectory_iff.1 hthere
    rcases hparent.moves_eq with ⟨-, hnil⟩ | ⟨move, hmoves⟩
    · exact isDirectory_iff.2 ⟨hparent.accepts haccepts hempty, _,
        follow_of_moves_eq_nil hparentStart hnil, hparentStart⟩
    · exact isDirectory_parent hparent hmoves haccepts hstart (follow_moves_of_found hplace) hempty

/-- A proper path can be made if adding directories can make it a directory. -/
theorem exists_makeLineage_of_isDirectory {path : String} {ancestors : List String}
    (hlineage : IsLineage (path :: ancestors)) (hproper : IsProper path)
    (hstart : s.lookup (s.start path) = some .directory) (hadds : AddsDirectories [] s t)
    (hthere : t.isDirectory path = true) :
    ∃ made, s.makeLineage (path :: ancestors) = (.ok (), made) := by
  rcases hmake : s.makeLineage (path :: ancestors) with ⟨cause | _, made⟩
  · exfalso
    have htStart := lookup_start_of_growsBelow hadds.growsBelow hstart
    have hmakes := makes_makeLineage (path :: ancestors) s
    rw [hmake] at hmakes
    -- what was made before it failed is there in the end
    have hmade := hmakes.addsDirectories_of_isSettled (fun other hother =>
      isSettled_of_isDirectory
        (hlineage.isDirectory_of_mem htStart (Or.inr hthere) other hother)) hadds
    obtain ⟨cause', hagain⟩ :=
      exists_makeLineage_error hlineage hproper hstart hmake hmade.growsBelow
    simp [makeLineage_of_isDirectory hthere] at hagain
  · exact ⟨made, rfl⟩

theorem isSettled_of_not_isProper {path : String} (h : ¬ IsProper path) (fs : FileSystem) :
    fs.IsSettled path := by
  intro t hmake
  obtain ⟨directory, name, -, hfree, -⟩ := exists_of_makeDirectory hmake
  exact h hfree.isProper

/-- No order of making a path and its ancestors achieves more than the one that is taken. -/
theorem exists_makeLineage_of_makes {path : String} {ancestors : List String}
    (hlineage : IsLineage (path :: ancestors))
    (hstart : s.lookup (s.start path) = some .directory) (hmakes : Makes (path :: ancestors) s t)
    (hthere : t.isDirectory path = true) :
    ∃ made, s.makeLineage (path :: ancestors) = (.ok (), made) := by
  have hadds := hmakes.addsDirectories
  have htStart := lookup_start_of_growsBelow hadds.growsBelow hstart
  have hall := hlineage.isDirectory_of_mem htStart (Or.inr hthere)
  by_cases hproper : IsProper path
  · exact exists_makeLineage_of_isDirectory hlineage hproper hstart hadds hthere
  -- with a dot at its end the path itself is never made, only its ancestors are
  cases hlineage with
  | last hnil => exact absurd (Or.inr hnil) hproper
  | @cons _ parent above hparent hlineage =>
    have hparentStart : ∀ {fs : FileSystem}, fs.lookup (fs.start path) = some .directory →
        fs.lookup (fs.start parent) = some .directory := by
      intro fs hfs
      rwa [start_eq_start hparent.isAbsolute]
    rcases hmake : s.makeLineage (path :: parent :: above) with ⟨cause | _, made⟩
    swap
    · exact ⟨made, rfl⟩
    exfalso
    obtain ⟨-, hcases⟩ := makeLineage_error_cases hmake
    rcases hcases with ⟨hstuck, hcause, hdirectory, -⟩ | habove | ⟨habove, -, hdirectory⟩
    · have hnever := isDirectory_of_stuck hadds.growsBelow (by simp [hstart]) hstuck hcause
        hdirectory
      exact absurd hthere (by simp [hnever])
    · rcases hall parent (by simp) with rfl | hparentThere
      · unfold makeLineage at habove
        rw [if_pos rfl] at habove
        simp at habove
      · obtain ⟨other, hother⟩ := exists_makeLineage_of_isDirectory hlineage hparent.isProper
          (hparentStart hstart) hadds hparentThere
        simp [habove] at hother
    · have hmade := (makes_makeLineage (parent :: above) s).addsDirectories
      rw [habove] at hmade
      have hmadeStart := lookup_start_of_growsBelow hmade.growsBelow hstart
      have habove' : parent = "" ∨ made.isDirectory parent = true := by
        by_cases hempty : parent = ""
        · exact Or.inl hempty
        · exact Or.inr (isDirectory_of_makeLineage habove hempty)
      have hthere' := hlineage.isDirectory_of_mem (hparentStart hmadeStart) habove'
      -- so nothing is left to make, and the path is there already
      have hlate : AddsDirectories [] t made := by
        refine hmakes.addsDirectories_of_isSettled (fun other hother => ?_) hmade
        rcases List.mem_cons.1 hother with rfl | hother
        · exact isSettled_of_not_isProper hproper made
        · exact isSettled_of_isDirectory (hthere' other hother)
      have hdone := isDirectory_of_growsBelow hlate.growsBelow hthere
      exact absurd hdone (by simp [hdirectory])

/-- Making a directory with its missing ancestors succeeds exactly if it can be made. -/
theorem exists_makeDirectories_iff {path : String} (hpath : path ≠ "")
    (hstart : fs.lookup (fs.start path) = some .directory) :
    (∃ made, fs.makeDirectories path = (.ok (), made)) ↔ fs.CanMake path := by
  have hmakes := makes_makeLineage (Path.ancestors path) fs
  obtain ⟨ancestors, heq, hlineage⟩ := isLineage_cons_ancestors path
  unfold makeDirectories CanMake
  rw [heq] at hmakes ⊢
  constructor
  · rintro ⟨made, hmade⟩
    rw [hmade] at hmakes
    exact ⟨made, hmakes, isDirectory_of_makeLineage hmade hpath⟩
  · rintro ⟨t, ht, hthere⟩
    exact exists_makeLineage_of_makes hlineage hstart ht hthere

/-- Where it fails, directories were made at the ancestors alone. -/
theorem makes_of_makeDirectories_error {path : String} {cause : Cause} {made : FileSystem}
    (h : fs.makeDirectories path = (.error cause, made)) :
    Makes (Path.ancestors path).tail fs made := by
  obtain ⟨ancestors, heq, -⟩ := isLineage_cons_ancestors path
  unfold makeDirectories at h
  rw [heq] at h
  rw [heq, List.tail_cons]
  have hmakes := makes_makeLineage ancestors fs
  obtain ⟨-, ⟨-, -, -, rfl⟩ | habove | ⟨habove, -, -⟩⟩ := makeLineage_error_cases h
  · exact .refl
  · rwa [habove] at hmakes
  · rwa [habove] at hmakes

end FileSystem

end Scaffold
