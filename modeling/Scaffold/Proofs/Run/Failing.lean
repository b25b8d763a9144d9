import Scaffold.Proofs.FileSystem.Holding
import Scaffold.Proofs.Run.Overwriting

set_option autoImplicit false

/-! # Items that fail

On its way to the output a file is looked for and read, then the directories for it are made, and
only then is it written. An item that fails on the way fails once, and it touches no file
(`bring_skipped`): an error that comes before the directories are made leaves everything as it is,
and after that nothing but some of these directories can be new. -/

namespace Scaffold

open FileSystem

namespace FileSystem

variable {s t : FileSystem} {target : String}

/-- From `s` to `t` nothing changed, except that there may be new directories that the target's
    parent or one of its ancestors leads to. -/
structure AddsParents (target : String) (s t : FileSystem) : Prop where
  workDir : t.workDir = s.workDir
  changed : ∀ place, t.lookup place ≠ s.lookup place →
    s.lookup place = none ∧ t.lookup place = some .directory ∧
      ∃ path ∈ parents target, t.LeadsTo path place

theorem addsParents_makeParent (fs : FileSystem) (target : String) :
    AddsParents target fs (fs.makeParent target).2 :=
  ⟨(addsDirectories_makeParent fs target).workDir, fun _ hplace =>
    (makes_makeParent fs target).changed hplace⟩

theorem AddsParents.file_iff (h : AddsParents target s t) (place : List String)
    (bytes : ByteArray) :
    t.lookup place = some (.file bytes) ↔ s.lookup place = some (.file bytes) := by
  by_cases hsame : t.lookup place = s.lookup place
  · rw [hsame]
  · obtain ⟨hs, ht, -⟩ := h.changed place hsame
    rw [hs, ht]
    simp

end FileSystem

/-- What an item that fails with the error may have changed on the way to its target. -/
def Error.Leaves (target : String) (s t : FileSystem) : Error → Prop
  | .sourceNotFound _ | .read _ _ | .targetExists _ => t = s
  | .copy _ _ _ | .write _ _ => AddsParents target s t
  | .access _ | .manifest _ _ | .projectRoot _ _ | .config _ | .validation _ => False

namespace Runner

/-- A file that a run is to bring to the output. -/
inductive FileItem
  /-- The file of an operation that copies a file. -/
  | copied (source target : String)
  /-- The file of an operation that filters a file. -/
  | filtered (source target : String)
  /-- A file that the copying of a directory comes to. -/
  | met (source target : String)

/-- The path that the file is brought to. -/
def FileItem.target : FileItem → String
  | .copied _ target | .filtered _ target | .met _ target => target

/-- Brings a file to the output. -/
def bring (r : Runner) : FileItem → Step
  | .copied source target => r.copyFile source target
  | .filtered source target => r.filterFile source target
  | .met source target => r.copyBytes source target

/-- An item has failed with an error that tells how far it came, or it has written a file. -/
inductive Ends (fs : FileSystem) (target : String) : List Event × FileSystem → Prop
  | failed {error : Error} {t : FileSystem} (hleaves : error.Leaves target fs t) :
      Ends fs target ([.skipped error], t)
  | wrote {event : Event} (t : FileSystem) (hwriting : event.isWriting = true) :
      Ends fs target ([event], t)

theorem ends_copyBytes (r : Runner) (source target : String) (fs : FileSystem) :
    Ends fs target (r.copyBytes source target fs) := by
  rcases copyBytes_cases r source target fs with
    ⟨-, -, hskip⟩ | ⟨-, ⟨cause, hskip⟩ | ⟨place, bytes, done, -, -, hcopy⟩⟩
  · rw [hskip]
    exact .failed rfl
  · rw [hskip]
    exact .failed (addsParents_makeParent fs target)
  · rw [hcopy]
    exact .wrote done rfl

theorem ends_copyFile (r : Runner) (source target : String) (fs : FileSystem) :
    Ends fs target (r.copyFile source target fs) := by
  unfold copyFile
  split
  · exact ends_copyBytes r source target fs
  · exact .failed rfl

theorem ends_filterFile (r : Runner) (source target : String) (fs : FileSystem) :
    Ends fs target (r.filterFile source target fs) := by
  cases hfile : fs.isFile source with
  | false =>
    rw [filterFile_of_not_isFile hfile]
    exact .failed rfl
  | true =>
    cases hread : readSource fs source with
    | error cause =>
      rw [filterFile_of_error hfile hread]
      exact .failed rfl
    | ok text =>
      rw [filterFile_of_text hfile hread]
      rcases putFile_cases target (r.filteredBytes target text) fs with
        ⟨cause, hskip⟩ | ⟨place, -, hput⟩
      · rw [hskip]
        exact .failed (addsParents_makeParent fs target)
      · rw [hput]
        exact .wrote _ rfl

theorem ends_bring (r : Runner) (item : FileItem) (fs : FileSystem) :
    Ends fs item.target (r.bring item fs) := by
  cases item with
  | copied source target => exact ends_copyFile r source target fs
  | filtered source target => exact ends_filterFile r source target fs
  | met source target => exact ends_copyBytes r source target fs

theorem file_iff_of_leaves {s t : FileSystem} {target : String} {error : Error}
    (h : error.Leaves target s t) (place : List String) (bytes : ByteArray) :
    t.lookup place = some (.file bytes) ↔ s.lookup place = some (.file bytes) := by
  cases error with
  | sourceNotFound | read | targetExists =>
    obtain rfl : t = s := h
    rfl
  | copy | write => exact AddsParents.file_iff h place bytes
  | access | manifest | projectRoot | config | validation => exact h.elim

/-- An item that fails does nothing but tell its error once. All files stay what they are, and with
    them everything else if the source is missing or cannot be read or the target exists; otherwise
    there may be new directories on the way to the target. -/
theorem bring_skipped (r : Runner) (item : FileItem) (fs : FileSystem) {error : Error}
    (h : .skipped error ∈ (r.bring item fs).1) :
    (r.bring item fs).1 = [.skipped error] ∧
    (∀ place bytes, (r.bring item fs).2.lookup place = some (.file bytes) ↔
      fs.lookup place = some (.file bytes)) ∧
    error.Leaves item.target fs (r.bring item fs).2 := by
  have hends := ends_bring r item fs
  generalize r.bring item fs = outcome at h hends ⊢
  cases hends with
  | @failed other t hleaves =>
    obtain rfl : error = other := by simpa using h
    exact ⟨rfl, file_iff_of_leaves hleaves, hleaves⟩
  | wrote t hwriting =>
    obtain rfl := List.mem_singleton.1 h
    exact absurd hwriting Bool.false_ne_true

/-- A file that is not there, to be brought to where there are no directories yet. -/
def missingItem : FileItem :=
  .met "tpl/a/missing.txt" "out/c/d/missing.txt"

def missingError : Error :=
  .copy "tpl/a/missing.txt" "out/c/d/missing.txt" (.system .notFound)

theorem bring_skipped_missing :
    .skipped missingError ∈ ((noteRunner "tpl").bring missingItem noteFiles).1 ∧
    (∀ place bytes,
      ((noteRunner "tpl").bring missingItem noteFiles).2.lookup place = some (.file bytes) ↔
        noteFiles.lookup place = some (.file bytes)) ∧
    AddsParents "out/c/d/missing.txt" noteFiles
      ((noteRunner "tpl").bring missingItem noteFiles).2 := by
  have hskipped : .skipped missingError ∈ ((noteRunner "tpl").bring missingItem noteFiles).1 := by
    decide +kernel
  obtain ⟨-, hfiles, hleaves⟩ := bring_skipped (noteRunner "tpl") missingItem noteFiles hskipped
  exact ⟨hskipped, hfiles, hleaves⟩

end Runner

end Scaffold
