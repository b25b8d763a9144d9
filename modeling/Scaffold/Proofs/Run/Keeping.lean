import Scaffold.Proofs.FileSystem.Files
import Scaffold.Proofs.Run.Steps

set_option autoImplicit false

/-! # What a run keeps

Without leave to overwrite, a copy is only made to a path that leads to nothing. The directories for
it are made after that was looked at, and they can make a path lead somewhere: `new/../a.txt` leads
to nothing as long as there is no directory `new`, and to the file `a.txt` once there is one. So a
run keeps the files that were there before it, except for those that filtered files replace and
those that it reaches by such a detour (`run_keeps`). -/

namespace Scaffold

open FileSystem

namespace Runner

variable {s t u : FileSystem} {r : Runner} {filtered : String → Prop}

/-- How a file that was at the place before can have got lost on the way from `s` to `t`: a filtered
    file went there, or a copy whose path led to nothing in `s`. -/
def MayLose (filtered : String → Prop) (s : FileSystem) (events : List Event) (t : FileSystem)
    (place : List String) : Prop :=
  ∃ target, t.resolve target = .ok (.found place) ∧
    (filtered target ∨ .copied target ∈ events ∧ s.isThere target = false)

/-- From `s` to `t` files are kept, unless a filtered file or a detour led to them. -/
structure Keeps (filtered : String → Prop) (s : FileSystem) (events : List Event)
    (t : FileSystem) : Prop where
  grows : GrowsBelow [] s t
  kept : ∀ place bytes, s.lookup place = some (.file bytes) →
    t.lookup place = some (.file bytes) ∨ MayLose filtered s events t place

theorem MayLose.of_growsBelow {events later : List Event} {place : List String}
    (h : MayLose filtered s events t place) (hgrows : GrowsBelow [] t u)
    (hevents : events ⊆ later) : MayLose filtered s later u place := by
  obtain ⟨target, htarget, hcause⟩ := h
  refine ⟨target, resolve_found_of_growsBelow hgrows htarget, ?_⟩
  exact hcause.imp_right (And.imp_left (@hevents _))

theorem MayLose.after_growsBelow {events later : List Event} {place : List String}
    (hgrows : GrowsBelow [] s t) (h : MayLose filtered t later u place)
    (hevents : later ⊆ events) : MayLose filtered s events u place := by
  obtain ⟨target, htarget, hcause⟩ := h
  refine ⟨target, htarget, hcause.imp_right fun ⟨hcopied, hthere⟩ => ⟨hevents hcopied, ?_⟩⟩
  -- what is missing later was missing before
  rw [← Bool.not_eq_true] at hthere ⊢
  exact fun hs => hthere (isThere_of_growsBelow hgrows hs)

theorem Keeps.append {events later : List Event} (h : Keeps filtered s events t)
    (h' : Keeps filtered t later u) : Keeps filtered s (events ++ later) u := by
  refine ⟨h.grows.trans h'.grows, fun place bytes hs => ?_⟩
  rcases h.kept place bytes hs with ht | hlost
  · rcases h'.kept place bytes ht with hu | hlost
    · exact Or.inl hu
    · exact Or.inr (hlost.after_growsBelow h.grows (List.subset_append_right _ _))
  · exact Or.inr (hlost.of_growsBelow h'.grows (List.subset_append_left _ _))

theorem Keeps.of_addsDirectories (h : AddsDirectories [] s t) (events : List Event) :
    Keeps filtered s events t :=
  ⟨h.growsBelow, fun _ _ hs => Or.inl (h.file_iff.2 hs)⟩

theorem Keeps.refl (s : FileSystem) (events : List Event) : Keeps filtered s events s :=
  .of_addsDirectories (AddsDirectories.refl [] s) events

/-- Directories are made for a file, and then it is written where it can be. -/
theorem Keeps.of_writes {events : List Event} {target : String} {place : List String}
    {bytes : ByteArray} (hparent : AddsDirectories [] s t) (hopens : t.Opens target place)
    (hwrites : Writes place bytes t u)
    (hcause : filtered target ∨ .copied target ∈ events ∧ s.isThere target = false) :
    Keeps filtered s events u := by
  have hgrows : GrowsBelow [] t u :=
    hwrites.growsBelow hopens.lookup_ne_directory List.nil_prefix
  refine ⟨hparent.growsBelow.trans hgrows, fun other old hs => ?_⟩
  by_cases hother : other = place
  · right
    rw [hother]
    exact ⟨target, hopens.resolve_of_growsBelow hgrows (by simp [hwrites.lookup_self]), hcause⟩
  · left
    rw [hwrites.lookup_of_ne hother]
    exact hparent.file_iff.2 hs

/-! ## Steps -/

theorem keeps_makeCopy (target : String) (fs : FileSystem) :
    Keeps filtered fs (makeCopy target fs).1 (makeCopy target fs).2 := by
  rw [makeCopy_eq]
  exact .of_addsDirectories (addsDirectories_makeDirectories fs target) _

theorem keeps_copyBytes (hr : r.overwrite = false) (source target : String) (fs : FileSystem) :
    Keeps filtered fs (r.copyBytes source target fs).1 (r.copyBytes source target fs).2 := by
  have hparent := addsDirectories_makeParent fs target
  rcases copyBytes_cases r source target fs with
    ⟨-, -, hskip⟩ | ⟨hthere, ⟨cause, hskip⟩ | ⟨place, bytes, done, hopens, hwrites, hcopy⟩⟩
  · rw [hskip]
    exact .refl fs _
  · rw [hskip]
    exact .of_addsDirectories hparent _
  · rw [hr, Bool.not_false, Bool.true_and] at hthere
    rw [hcopy]
    exact .of_writes hparent hopens hwrites (Or.inr ⟨List.mem_singleton_self _, hthere⟩)

theorem keeps_putFile {target : String} (htarget : filtered target) (bytes : ByteArray)
    (fs : FileSystem) :
    Keeps filtered fs (putFile target bytes fs).1 (putFile target bytes fs).2 := by
  have hparent := addsDirectories_makeParent fs target
  rcases putFile_cases target bytes fs with ⟨cause, hskip⟩ | ⟨place, hopens, hput⟩
  · rw [hskip]
    exact .of_addsDirectories hparent _
  · rw [hput]
    exact .of_writes hparent hopens (hopens.writes_put bytes) (Or.inl htarget)

/-! ## Runs -/

theorem isInductive_keeps (hr : r.overwrite = false) :
    r.IsInductive filtered (Keeps filtered) where
  nil fs := .refl fs []
  append _ _ _ _ _ h h' := h.append h'
  tell event fs _ := .refl fs [event]
  makeCopy := keeps_makeCopy
  copyBytes := keeps_copyBytes hr
  putFile _ bytes fs htarget := keeps_putFile htarget bytes fs

/-- A path that led to nothing and leads to a file that was there has a parent piece. -/
theorem parent_mem_pieces {target : String} {place : List String} (hgrows : GrowsBelow [] s t)
    (hthere : s.isThere target = false) (ht : t.resolve target = .ok (.found place))
    (hplace : s.lookup place ≠ none) : ".." ∈ pieces target := by
  by_contra hpieces
  have hstrict : ".." ∉ strictPieces target := by
    rcases strictPieces_eq target with heq | heq
    · rwa [heq]
    · simpa [heq] using hpieces
  -- without a parent piece the path would have led there before
  obtain ⟨haccepts, hfollow⟩ := resolve_eq_ok_iff.1 ht
  rw [start_congr hgrows.workDir] at hfollow
  have hs := follow_found_of_grown hgrows hstrict hfollow hplace
  have hthere' : s.isThere target = true :=
    isThere_iff.2 ⟨place, resolve_eq_ok_iff.2 ⟨haccepts, hs⟩, hplace⟩
  rw [hthere] at hthere'
  exact Bool.false_ne_true hthere'

/-- A run that may not overwrite keeps every file but those that its filtered files replace and
    those that a copy reaches by a detour: by a path with a parent piece that led to nothing before
    the run. -/
theorem run_keeps (hr : r.overwrite = false) (set : OperationSet) (fs : FileSystem)
    {place : List String} {bytes : ByteArray} (hfile : fs.lookup place = some (.file bytes)) :
    (r.run set fs).2.lookup place = some (.file bytes) ∨
      (∃ transfer ∈ set.fileFilters,
        (r.run set fs).2.resolve (transfer.target.below r.outputRoot) = .ok (.found place)) ∨
      ∃ target, .copied target ∈ (r.run set fs).1 ∧
        (r.run set fs).2.resolve target = .ok (.found place) ∧
        fs.isThere target = false ∧ ".." ∈ pieces target := by
  have hkeeps : Keeps (r.FilterTarget set) fs (r.run set fs).1 (r.run set fs).2 :=
    (isInductive_keeps hr).run (fun _ htarget => htarget) fs
  rcases hkeeps.kept place bytes hfile with hkept | ⟨target, htarget, hfilter | ⟨hcopied, hthere⟩⟩
  · exact Or.inl hkept
  · obtain ⟨transfer, htransfer, rfl⟩ := hfilter
    exact Or.inr (Or.inl ⟨transfer, htransfer, htarget⟩)
  · have hparent := parent_mem_pieces hkeeps.grows hthere htarget (by simp [hfile])
    exact Or.inr (Or.inr ⟨target, hcopied, htarget, hthere, hparent⟩)

/-! ## A detour -/

/-- A template with the file `a.txt`, and an output directory with the file `keep.txt`. -/
def detourFiles : FileSystem :=
  ⟨[("tpl", .directory [("a.txt", .file "new".toUTF8)]),
    ("out", .directory [("keep.txt", .file "old".toUTF8)])], []⟩

/-- Copies the template's file through a directory that is not there to the output's file. -/
def detourSet : OperationSet :=
  ⟨[], [⟨⟨["a.txt"]⟩, ⟨["new", "..", "keep.txt"]⟩⟩], []⟩

def detourRunner : Runner :=
  ⟨id, "tpl", "out", false⟩

theorem run_keeps_or_detour : detourRunner.overwrite = false ∧
    detourFiles.lookup ["out", "keep.txt"] = some (.file "old".toUTF8) ∧
    ((detourRunner.run detourSet detourFiles).2.lookup ["out", "keep.txt"] =
        some (.file "old".toUTF8) ∨
      (∃ transfer ∈ detourSet.fileFilters,
        (detourRunner.run detourSet detourFiles).2.resolve
          (transfer.target.below detourRunner.outputRoot) = .ok (.found ["out", "keep.txt"])) ∨
      ∃ target, .copied target ∈ (detourRunner.run detourSet detourFiles).1 ∧
        (detourRunner.run detourSet detourFiles).2.resolve target =
          .ok (.found ["out", "keep.txt"]) ∧
        detourFiles.isThere target = false ∧ ".." ∈ pieces target) := by
  have hr : detourRunner.overwrite = false := rfl
  have hfile : detourFiles.lookup ["out", "keep.txt"] = some (.file "old".toUTF8) := by
    decide +kernel
  exact ⟨hr, hfile, run_keeps hr detourSet detourFiles hfile⟩

/-- Such a file is lost, though no filtered file went there. -/
theorem exists_run_overwrites : ¬ ∀ (r : Runner) (set : OperationSet) (fs : FileSystem)
    (place : List String) (bytes : ByteArray), r.overwrite = false →
      fs.lookup place = some (.file bytes) →
      (r.run set fs).2.lookup place = some (.file bytes) ∨
        ∃ transfer ∈ set.fileFilters,
          (r.run set fs).2.resolve (transfer.target.below r.outputRoot) = .ok (.found place) := by
  intro hkeeps
  have hfile : detourFiles.lookup ["out", "keep.txt"] = some (.file "old".toUTF8) := by
    decide +kernel
  have hlost : (detourRunner.run detourSet detourFiles).2.lookup ["out", "keep.txt"] ≠
      some (.file "old".toUTF8) := by
    decide +kernel
  rcases hkeeps detourRunner detourSet detourFiles _ _ rfl hfile with hkept | ⟨transfer, hmem, -⟩
  · exact hlost hkept
  · exact List.not_mem_nil hmem

end Runner

end Scaffold
