import Scaffold.Proofs.FileSystem.Inside
import Scaffold.Proofs.Manifest.Segments
import Scaffold.Proofs.Run.Items

set_option autoImplicit false

/-! # Runs stay inside their output directory

Where the targets of operations stay inside a directory, so does every path that a run makes a
directory or puts a file at: what it adds to the targets are names that were listed. So each item
changes something at or below the directory at most (`growsBelow_performAll_inside`). Targets that
do not lead up stay inside the output directory, and so does a whole run of them (`run_outside`),
wherever its sources lie and whatever fails. -/

namespace Scaffold

open FileSystem

namespace Runner

variable {r : Runner} {fs : FileSystem} {top : List String}

/-- The paths that stay inside a place. Files may be taken from anywhere. -/
def inside (fs : FileSystem) (top : List String) : Bounds where
  directory path := fs.StaysInside top path
  file path := fs.StaysInside top path
  source _ := True
  directory_join _ _ h hname := h.join_name hname
  file_join _ _ h hname := h.join_name hname
  source_join _ _ _ _ := trivial

theorem admits_inside {op : Operation} (h : fs.StaysInside top (r.targetOf op)) :
    r.Admits (inside fs top) op :=
  ⟨trivial, h, h.join_empty⟩

/-! ## Items that stay inside -/

/-- An item changes nothing outside the place that its path stays inside. -/
theorem growsBelow_of_changes {item : Item} {done : FileSystem} (h : item.Changes fs done)
    (hitem : item.IsWithin (inside fs top)) : GrowsBelow top fs done := by
  cases h with
  | nothing => exact .refl top fs
  | directory target =>
    have hinside : fs.StaysInside top target := hitem
    exact hinside.addsDirectories_makeDirectories.growsBelow
  | parent htarget =>
    have hinside : fs.StaysInside top _ := hitem.file htarget
    exact hinside.addsDirectories_makeParent.growsBelow
  | file htarget hopens hwrites =>
    have hinside : fs.StaysInside top _ := hitem.file htarget
    have hparent := hinside.addsDirectories_makeParent.growsBelow
    have htop := hopens.below_of_staysInside (hinside.of_growsBelow hparent)
    exact hparent.trans (hwrites.growsBelow hopens.lookup_ne_directory htop)

theorem growsBelow_performAll_inside {items : List Item}
    (hitems : ∀ item ∈ items, item.IsWithin (inside fs top)) :
    GrowsBelow top fs (r.performAll items fs).2 := by
  induction items generalizing fs with
  | nil => exact .refl top fs
  | cons item items ih =>
    have hfirst := growsBelow_of_changes (changes_perform r item fs) (hitems item List.mem_cons_self)
    rw [performAll_cons]
    refine hfirst.trans (ih fun other hother => ?_)
    have hother := hitems other (List.mem_cons_of_mem _ hother)
    exact hother.mono (fun _ h => h.of_growsBelow hfirst) (fun _ h => h.of_growsBelow hfirst)
      fun _ _ => trivial

/-- Operations whose targets stay inside a place change nothing outside it. -/
theorem growsBelow_operations {ops : List Operation} (hfs : fs.WellFormed)
    (hops : ∀ op ∈ ops, fs.StaysInside top (r.targetOf op)) :
    GrowsBelow top fs (Step.seq (ops.map r.runOperation) fs).2 := by
  rw [performs_operations]
  exact growsBelow_performAll_inside
    (stays_operations (fun op hop => admits_inside (hops op hop)) fs hfs)

/-! ## Operations that do not lead up -/

/-- The paths that descend from the output root. Files may be taken from anywhere. -/
def descending (r : Runner) : Bounds where
  directory path := ∃ rest, Descends r.outputRoot path rest
  file path := ∃ rest, Descends r.outputRoot path rest
  source _ := True
  directory_join := fun _ _ ⟨_, h⟩ hname =>
    ⟨_, h.join hname.ne_empty hname.slash_not_mem hname.isStep.2⟩
  file_join := fun _ _ ⟨_, h⟩ hname =>
    ⟨_, h.join hname.ne_empty hname.slash_not_mem hname.isStep.2⟩
  source_join _ _ _ _ := trivial

theorem descends_below (root : String) {spec : PathSpec}
    (h : ∀ segment ∈ spec.segments, segment ≠ "" ∧ '/' ∉ segment.toList)
    (hup : ".." ∉ spec.segments) : Descends root (spec.below root) spec.segments := by
  unfold PathSpec.below
  generalize spec.segments = segments at h hup ⊢
  induction segments using List.reverseRecOn with
  | nil => exact .refl root
  | append_singleton before segment ih =>
    rw [List.mem_append, List.mem_singleton, not_or] at hup
    obtain ⟨hne, hslash⟩ := h segment (by simp)
    rw [List.foldl_append]
    refine (ih (fun other hother => h other ?_) hup.1).join hne hslash fun heq => hup.2 heq.symm
    exact List.mem_append_left _ hother

theorem admits_descending {op : Operation} {text : String}
    (hparse : PathSpec.parse? text = some op.transfer.target)
    (hup : ".." ∉ op.transfer.target.segments) : r.Admits r.descending op := by
  have hdescends := descends_below r.outputRoot (PathSpec.segments_of_parse? hparse).2 hup
  exact ⟨trivial, ⟨_, hdescends⟩, ⟨_, hdescends.join_empty⟩⟩

theorem growsBelow_performAll {items : List Item} (hroot : fs.IsRoot r.outputRoot top)
    (hitems : ∀ item ∈ items, item.IsWithin r.descending) :
    GrowsBelow top fs (r.performAll items fs).2 := by
  have hinside : ∀ path, (∃ rest, Descends r.outputRoot path rest) → fs.StaysInside top path :=
    fun path ⟨_, h⟩ => h.staysInside hroot
  exact growsBelow_performAll_inside fun item hitem =>
    (hitems item hitem).mono hinside hinside fun _ _ => trivial

/-- A run changes nothing outside its output directory, if the targets of its operations were read
    from texts and do not lead up. -/
theorem run_outside (r : Runner) (set : OperationSet) (hfs : fs.WellFormed)
    (hroot : fs.IsRoot r.outputRoot top)
    (hparsed : ∀ op ∈ set.operations, ∃ text, PathSpec.parse? text = some op.transfer.target)
    (hup : ∀ op ∈ set.operations, ".." ∉ op.transfer.target.segments) {place : List String}
    (hplace : ¬ top <+: place) : (r.run set fs).2.lookup place = fs.lookup place := by
  have hwithin : ∀ item ∈ r.items set fs, item.IsWithin r.descending := by
    refine isWithin_items (fun op hop => ?_) hfs
    obtain ⟨text, hparse⟩ := hparsed op hop
    exact admits_descending hparse (hup op hop)
  rw [run_eq_performAll]
  exact (growsBelow_performAll hroot hwithin).outside place hplace

/-! ## A target with a dot -/

/-- A template with a directory of one file, and an output directory with a file. -/
def templateAndOutput : FileSystem :=
  let fs := ((FileSystem.mk [] []).makeDirectories "tpl/a").2
  let fs := (fs.write "tpl/a/x.txt" "new".toUTF8).2
  let fs := (fs.makeDirectories "out").2
  (fs.write "out/x.txt" "old".toUTF8).2

/-- Runs from the one to the other, without leave to overwrite. -/
def templateToOutput : Runner :=
  ⟨id, "tpl", "out", false⟩

/-- Copies the template's directory by a path with a dot. -/
def dottedCopySet : OperationSet :=
  ⟨[⟨⟨["a"]⟩, ⟨[".", "b"]⟩⟩], [], []⟩

theorem templateAndOutput_wellFormed : templateAndOutput.WellFormed := by
  unfold templateAndOutput
  have htemplate := wellFormed_makeDirectories wellFormed_empty "tpl/a"
  exact wellFormed_write (wellFormed_makeDirectories (wellFormed_write htemplate _ _) _) _ _

theorem templateToOutput_isRoot : templateAndOutput.IsRoot templateToOutput.outputRoot ["out"] := by
  constructor
  · unfold LeadsTo
    decide +kernel
  · decide +kernel

theorem run_outside_sample : templateAndOutput.WellFormed ∧
    templateAndOutput.IsRoot templateToOutput.outputRoot ["out"] ∧
    (∀ op ∈ dottedCopySet.operations, ∃ text, PathSpec.parse? text = some op.transfer.target) ∧
    (∀ op ∈ dottedCopySet.operations, ".." ∉ op.transfer.target.segments) ∧
    ¬ ["out"] <+: ["tpl", "a", "x.txt"] ∧
    (templateToOutput.run dottedCopySet templateAndOutput).2.lookup ["tpl", "a", "x.txt"] =
      templateAndOutput.lookup ["tpl", "a", "x.txt"] := by
  have hparsed : ∀ op ∈ dottedCopySet.operations,
      ∃ text, PathSpec.parse? text = some op.transfer.target := by
    intro op hop
    obtain rfl : op = ⟨.copySubtree, ⟨⟨["a"]⟩, ⟨[".", "b"]⟩⟩⟩ := List.mem_singleton.1 hop
    exact ⟨"./b", by decide +kernel⟩
  have hup : ∀ op ∈ dottedCopySet.operations, ".." ∉ op.transfer.target.segments := by decide
  have hplace : ¬ ["out"] <+: ["tpl", "a", "x.txt"] := by decide
  exact ⟨templateAndOutput_wellFormed, templateToOutput_isRoot, hparsed, hup, hplace,
    run_outside templateToOutput dottedCopySet templateAndOutput_wellFormed
      templateToOutput_isRoot hparsed hup hplace⟩

end Runner

end Scaffold
