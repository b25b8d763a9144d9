import Scaffold.Proofs.FileSystem.Files
import Scaffold.Run.Basic

set_option autoImplicit false

/-! # Steps of a run

Steps are taken one after the other, and the copying of a directory is such a sequence again: what
holds of every step of a sequence holds of the sequence (`Step.seq_induction`). A run comes down to
three things that it does to the file system: it makes a directory, copies a file or writes a
filtered file. What these three keep is kept by every run (`IsInductive.run`). -/

namespace Scaffold

open FileSystem

/-- A relation between file systems and events that holds of doing nothing, goes on from step to
    step and holds of every single step holds of all of them together. -/
theorem Step.seq_induction {P : FileSystem → List Event → FileSystem → Prop}
    (hnil : ∀ fs, P fs [] fs)
    (happend : ∀ s t u events later, P s events t → P t later u → P s (events ++ later) u)
    {steps : List Step} (h : ∀ step ∈ steps, ∀ fs, P fs (step fs).1 (step fs).2)
    (fs : FileSystem) : P fs (Step.seq steps fs).1 (Step.seq steps fs).2 := by
  induction steps generalizing fs with
  | nil => exact hnil fs
  | cons step steps ih =>
    have hstep := h step List.mem_cons_self fs
    have hsteps := ih (fun other hother => h other (List.mem_cons_of_mem _ hother)) (step fs).2
    exact happend fs _ _ _ _ hstep hsteps

/-- Tells of an item that is passed over. -/
def Step.skip (error : Error) : Step := fun fs =>
  ([.skipped error], fs)

namespace Runner

variable {r : Runner} {source target : String} {fs : FileSystem}

/-! ## Making a directory -/

theorem makeCopy_eq (target : String) (fs : FileSystem) :
    makeCopy target fs =
      ((match (fs.makeDirectories target).1 with
        | .error cause => [.skipped (.write target cause)]
        | .ok () => []), (fs.makeDirectories target).2) := by
  unfold makeCopy
  rcases hmade : fs.makeDirectories target with ⟨_ | _, made⟩ <;> rfl

/-! ## Copying a file -/

/-- A copy is refused where something is in the way, or the directories for it are made, and then it
    fails or is written as a whole. -/
theorem copyBytes_cases (r : Runner) (source target : String) (fs : FileSystem) :
    (r.overwrite = false ∧ fs.isThere target = true ∧
      r.copyBytes source target fs = ([.skipped (.targetExists target)], fs)) ∨
    (!r.overwrite && fs.isThere target) = false ∧
      ((∃ cause, r.copyBytes source target fs =
          ([.skipped (.copy source target cause)], (fs.makeParent target).2)) ∨
        ∃ place bytes done, (fs.makeParent target).2.Opens target place ∧
          Writes place bytes (fs.makeParent target).2 done ∧
          r.copyBytes source target fs = ([.copied target], done)) := by
  unfold copyBytes
  cases hthere : !r.overwrite && fs.isThere target with
  | true =>
    simp only [Bool.and_eq_true, Bool.not_eq_true'] at hthere
    exact Or.inl ⟨hthere.1, hthere.2, rfl⟩
  | false =>
    refine Or.inr ⟨rfl, ?_⟩
    rw [if_neg Bool.false_ne_true]
    rcases hmade : fs.makeParent target with ⟨cause | _, made⟩
    · exact Or.inl ⟨_, rfl⟩
    · rcases copy_cases made source target with
        ⟨cause, hcopy⟩ | ⟨place, bytes, done, hopens, -, hcopy, hwrites⟩
      · exact Or.inl ⟨cause, by simp only [hcopy]⟩
      · exact Or.inr ⟨place, bytes, done, hopens, hwrites, by simp only [hcopy]⟩

/-! ## Copying a directory -/

/-- The copying of what a directory holds, one step for each name. -/
def copyEntries (r : Runner) (room : Nat) (source target : String)
    (entries : List (String × Bool)) : List Step :=
  entries.map fun (name, isDirectory) =>
    if isDirectory then r.copyDirectory room (Path.join source name) (Path.join target name)
    else r.copyBytes (Path.join source name) (Path.join target name)

theorem exists_of_mem_copyEntries {room : Nat} {entries : List (String × Bool)} {step : Step}
    (h : step ∈ r.copyEntries room source target entries) :
    ∃ name,
      ((name, true) ∈ entries ∧
        step = r.copyDirectory room (Path.join source name) (Path.join target name)) ∨
      ((name, false) ∈ entries ∧
        step = r.copyBytes (Path.join source name) (Path.join target name)) := by
  obtain ⟨⟨name, isDirectory⟩, hname, rfl⟩ := List.mem_map.1 h
  cases isDirectory with
  | true => exact ⟨name, Or.inl ⟨hname, if_pos rfl⟩⟩
  | false => exact ⟨name, Or.inr ⟨hname, if_neg Bool.false_ne_true⟩⟩

theorem copyDirectory_of_error (room : Nat) {cause : Cause} (h : fs.list source = .error cause) :
    r.copyDirectory room source target fs =
      Step.seq [makeCopy target, Step.skip (.read source (.listing source cause))] fs := by
  unfold copyDirectory
  rw [h]
  rfl

theorem copyDirectory_zero {entries : List (String × Bool)} (h : fs.list source = .ok entries) :
    r.copyDirectory 0 source target fs = makeCopy target fs := by
  unfold copyDirectory
  rw [h]

theorem copyDirectory_succ (room : Nat) {entries : List (String × Bool)}
    (h : fs.list source = .ok entries) :
    r.copyDirectory (room + 1) source target fs =
      Step.seq (makeCopy target :: r.copyEntries room source target entries) fs := by
  rw [copyDirectory]
  simp only [h]
  rfl

/-! ## Filtering a file -/

/-- Writes a filtered file after making the directory for it. -/
def putFile (target : String) (bytes : ByteArray) : Step := fun fs =>
  match fs.makeParent target with
  | (.error cause, fs) => ([.skipped (.write target cause)], fs)
  | (.ok (), fs) =>
    match fs.write target bytes with
    | (.error cause, fs) => ([.skipped (.write target cause)], fs)
    | (.ok (), fs) => ([.wrote target], fs)

/-- The directories for a file are made, and then it is written or nothing else happens. -/
theorem putFile_cases (target : String) (bytes : ByteArray) (fs : FileSystem) :
    (∃ cause, putFile target bytes fs =
        ([.skipped (.write target cause)], (fs.makeParent target).2)) ∨
      ∃ place, (fs.makeParent target).2.Opens target place ∧
        putFile target bytes fs =
          ([.wrote target], (fs.makeParent target).2.put place (.file bytes)) := by
  unfold putFile
  rcases hmade : fs.makeParent target with ⟨cause | _, made⟩
  · exact Or.inl ⟨_, rfl⟩
  · rcases write_cases made target bytes with ⟨cause, hwrite⟩ | ⟨place, hopens, hwrite⟩
    · exact Or.inl ⟨cause, by simp only [hwrite]⟩
    · exact Or.inr ⟨place, hopens, by simp only [hwrite]⟩

theorem filterFile_of_not_isFile (h : fs.isFile source = false) :
    r.filterFile source target fs = Step.skip (.sourceNotFound source) fs := by
  unfold filterFile
  rw [h, if_neg Bool.false_ne_true]
  rfl

theorem filterFile_of_error (h : fs.isFile source = true) {cause : Cause}
    (hread : readSource fs source = .error cause) :
    r.filterFile source target fs = Step.skip (.read source cause) fs := by
  unfold filterFile
  rw [h, if_pos rfl, hread]
  rfl

theorem filterFile_of_text (h : fs.isFile source = true) {text : String}
    (hread : readSource fs source = .ok text) :
    r.filterFile source target fs = putFile target (r.filteredBytes target text) fs := by
  unfold filterFile
  rw [h, if_pos rfl, hread]
  rfl

/-! ## Running operations -/

/-- The work that an operation stands for. -/
def work (r : Runner) (op : Operation) : Step :=
  let source := op.transfer.source.below r.templateRoot
  let target := op.transfer.target.below r.outputRoot
  match op.kind with
  | .copySubtree => r.copySubtree source target
  | .copyFile => r.copyFile source target
  | .filterFile => r.filterFile source target

theorem runOperation_eq (r : Runner) (op : Operation) :
    r.runOperation op = Step.seq [fun fs => ([.started op], fs), r.work op] := rfl

/-- The paths that the filtered files of a set go to. -/
def FilterTarget (r : Runner) (set : OperationSet) (target : String) : Prop :=
  ∃ transfer ∈ set.fileFilters, target = transfer.target.below r.outputRoot

theorem filterTarget_of_mem {set : OperationSet} {op : Operation} (h : op ∈ set.operations)
    (hkind : op.kind = .filterFile) :
    r.FilterTarget set (op.transfer.target.below r.outputRoot) := by
  obtain ⟨kind, transfer⟩ := op
  obtain rfl : kind = .filterFile := hkind
  have hmem : transfer ∈ set.fileFilters := by
    simpa [OperationSet.operations] using h
  exact ⟨transfer, hmem, rfl⟩

/-! ## What every run keeps -/

/-- A relation between two file systems and what happens from one to the other that goes on from
    step to step, and that holds of everything a runner does in one go. Its filtered files go to the
    paths `filtered`. -/
structure IsInductive (r : Runner) (filtered : String → Prop)
    (P : FileSystem → List Event → FileSystem → Prop) : Prop where
  nil : ∀ fs, P fs [] fs
  append : ∀ s t u events later, P s events t → P t later u → P s (events ++ later) u
  tell : ∀ event fs, event.isWriting = false → P fs [event] fs
  makeCopy : ∀ target fs, P fs (makeCopy target fs).1 (makeCopy target fs).2
  copyBytes : ∀ source target fs,
    P fs (r.copyBytes source target fs).1 (r.copyBytes source target fs).2
  putFile : ∀ target bytes fs, filtered target →
    P fs (putFile target bytes fs).1 (putFile target bytes fs).2

namespace IsInductive

variable {filtered : String → Prop} {P : FileSystem → List Event → FileSystem → Prop}

theorem skip (h : r.IsInductive filtered P) (error : Error) (fs : FileSystem) :
    P fs (Step.skip error fs).1 (Step.skip error fs).2 :=
  h.tell _ fs rfl

theorem seq (h : r.IsInductive filtered P) {steps : List Step}
    (hsteps : ∀ step ∈ steps, ∀ fs, P fs (step fs).1 (step fs).2) (fs : FileSystem) :
    P fs (Step.seq steps fs).1 (Step.seq steps fs).2 :=
  Step.seq_induction h.nil h.append hsteps fs

theorem makeCopy_skip (h : r.IsInductive filtered P) (target : String) (error : Error)
    (fs : FileSystem) :
    P fs (Step.seq [Runner.makeCopy target, Step.skip error] fs).1
      (Step.seq [Runner.makeCopy target, Step.skip error] fs).2 := by
  refine h.seq (fun step hstep => ?_) fs
  simp only [List.mem_cons, List.not_mem_nil, or_false] at hstep
  rcases hstep with rfl | rfl
  · exact h.makeCopy target
  · exact h.skip error

theorem copyDirectory (h : r.IsInductive filtered P) (room : Nat) (source target : String)
    (fs : FileSystem) :
    P fs (r.copyDirectory room source target fs).1 (r.copyDirectory room source target fs).2 := by
  induction room generalizing source target fs with
  | zero =>
    cases hlist : fs.list source with
    | error cause =>
      rw [copyDirectory_of_error 0 hlist]
      exact h.makeCopy_skip target _ fs
    | ok entries =>
      rw [copyDirectory_zero hlist]
      exact h.makeCopy target fs
  | succ room ih =>
    cases hlist : fs.list source with
    | error cause =>
      rw [copyDirectory_of_error (room + 1) hlist]
      exact h.makeCopy_skip target _ fs
    | ok entries =>
      -- the listing was read before anything is made, so it does not change on the way
      rw [copyDirectory_succ room hlist]
      refine h.seq (fun step hstep => ?_) fs
      rcases List.mem_cons.1 hstep with rfl | hstep
      · exact h.makeCopy target
      · obtain ⟨name, ⟨-, rfl⟩ | ⟨-, rfl⟩⟩ := exists_of_mem_copyEntries hstep
        · exact ih _ _
        · exact h.copyBytes _ _

theorem copyFile (h : r.IsInductive filtered P) (source target : String) (fs : FileSystem) :
    P fs (r.copyFile source target fs).1 (r.copyFile source target fs).2 := by
  unfold Runner.copyFile
  split
  · exact h.copyBytes source target fs
  · exact h.skip _ fs

theorem filterFile (h : r.IsInductive filtered P) (source : String) {target : String}
    (htarget : filtered target) (fs : FileSystem) :
    P fs (r.filterFile source target fs).1 (r.filterFile source target fs).2 := by
  cases hfile : fs.isFile source with
  | false =>
    rw [filterFile_of_not_isFile hfile]
    exact h.skip _ fs
  | true =>
    cases hread : readSource fs source with
    | error cause =>
      rw [filterFile_of_error hfile hread]
      exact h.skip _ fs
    | ok text =>
      rw [filterFile_of_text hfile hread]
      exact h.putFile target _ fs htarget

theorem copySubtree (h : r.IsInductive filtered P) (source target : String) (fs : FileSystem) :
    P fs (r.copySubtree source target fs).1 (r.copySubtree source target fs).2 := by
  unfold Runner.copySubtree
  split
  · exact h.copyDirectory _ _ _ fs
  · exact h.skip _ fs

theorem runOperation (h : r.IsInductive filtered P) (op : Operation)
    (hop : op.kind = .filterFile → filtered (op.transfer.target.below r.outputRoot))
    (fs : FileSystem) : P fs (r.runOperation op fs).1 (r.runOperation op fs).2 := by
  rw [runOperation_eq]
  refine h.seq (fun step hstep => ?_) fs
  simp only [List.mem_cons, List.not_mem_nil, or_false] at hstep
  rcases hstep with rfl | rfl
  · exact fun fs => h.tell _ fs rfl
  · unfold work
    cases hkind : op.kind with
    | copySubtree => exact h.copySubtree _ _
    | copyFile => exact h.copyFile _ _
    | filterFile => exact h.filterFile _ (hop hkind)

/-- What holds of everything that a runner does in one go holds of its runs. -/
theorem run (h : r.IsInductive filtered P) {set : OperationSet}
    (hset : ∀ target, r.FilterTarget set target → filtered target) (fs : FileSystem) :
    P fs (r.run set fs).1 (r.run set fs).2 := by
  refine h.seq (fun step hstep => ?_) fs
  obtain ⟨op, hop, rfl⟩ := List.mem_map.1 hstep
  exact h.runOperation op fun hkind => hset _ (filterTarget_of_mem hop hkind)

end IsInductive

end Runner

end Scaffold
