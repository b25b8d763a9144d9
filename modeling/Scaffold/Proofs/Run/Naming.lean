import Scaffold.Proofs.FileSystem.Spots
import Scaffold.Proofs.Run.Items
import Scaffold.Proofs.Run.Operations

set_option autoImplicit false

/-! # Runs between paths of names

Where the paths of all operations are paths of names, the items of a run put files strictly below
the output root and take them from strictly below the template root. The output root need not be
there when the run begins, so what is made on the way to it may stand elsewhere: but these are
directories, and all files outside it are kept as they are (`keepsFiles_performAll`). -/

namespace Scaffold

open FileSystem

/-- From `s` to `t` the file system has grown, and below the place `top` alone there may be new files
    and new bytes. -/
structure KeepsFiles (top : List String) (s t : FileSystem) : Prop where
  grows : GrowsBelow [] s t
  file_iff : ∀ place, ¬ top <+: place → ∀ bytes,
    t.lookup place = some (.file bytes) ↔ s.lookup place = some (.file bytes)

namespace KeepsFiles

variable {s t u : FileSystem} {top : List String}

theorem refl (top : List String) (s : FileSystem) : KeepsFiles top s s :=
  ⟨.refl [] s, fun _ _ _ => Iff.rfl⟩

theorem trans (h : KeepsFiles top s t) (h' : KeepsFiles top t u) : KeepsFiles top s u :=
  ⟨h.grows.trans h'.grows, fun place hplace bytes =>
    (h'.file_iff place hplace bytes).trans (h.file_iff place hplace bytes)⟩

theorem of_addsDirectories (h : AddsDirectories [] s t) : KeepsFiles top s t :=
  ⟨h.growsBelow, fun _ _ _ => h.file_iff⟩

theorem of_writes {path : String} {place : List String} {bytes : ByteArray}
    (hopens : s.Opens path place) (hwrites : Writes place bytes s t) (htop : top <+: place) :
    KeepsFiles top s t := by
  refine ⟨hwrites.growsBelow hopens.lookup_ne_directory List.nil_prefix, fun other hother _ => ?_⟩
  have hne : other ≠ place := by
    rintro rfl
    exact hother htop
  rw [hwrites.lookup_of_ne hne]

end KeepsFiles

namespace Runner

variable {r : Runner} {fs : FileSystem}

/-- The places that the template root and the output root can lead to lie apart. -/
def RootsApart (r : Runner) (fs : FileSystem) : Prop :=
  LieApart (fs.spot r.outputRoot) (fs.spot r.templateRoot)

theorem RootsApart.congr {t : FileSystem} (h : r.RootsApart fs) (hworkDir : t.workDir = fs.workDir) :
    r.RootsApart t := by
  unfold RootsApart
  rwa [spot_congr hworkDir, spot_congr hworkDir]

/-- The paths that extend the roots by names, those of what is made by at least one. -/
def naming (r : Runner) : Bounds where
  directory path := ∃ names, names ≠ [] ∧ Extends r.outputRoot path names
  file path := ∃ names, ExtendsToName r.outputRoot path names
  source path := ∃ names, Extends r.templateRoot path names
  directory_join := fun _ _ ⟨_, _, h⟩ hname => ⟨_, by simp, h.join hname⟩
  file_join := fun _ _ ⟨_, _, h⟩ hname => ⟨_, h.join_name hname⟩
  source_join := fun _ _ ⟨_, h⟩ hname => ⟨_, h.join hname⟩

theorem admits_naming {op : Operation} (h : op.IsNamed) : r.Admits r.naming op := by
  have htarget := extendsToName_below r.outputRoot h.target
  exact ⟨⟨_, (extendsToName_below r.templateRoot h.source).toExtends⟩, ⟨_, htarget⟩,
    ⟨_, htarget.ne_nil, htarget.join_empty⟩⟩

/-! ## Targets and sources -/

/-- A file of a run stands below the spot of the output root. -/
theorem below_of_file {target : String} (htarget : r.naming.file target) {place : List String}
    (hopens : fs.Opens target place) : fs.spot r.outputRoot <+: place := by
  obtain ⟨names, hextends⟩ := htarget
  rw [hopens.eq_spot, hextends.spot_eq]
  exact List.prefix_append _ names

/-- A source of a run does not stand below the spot of the output root. -/
theorem not_below_of_source (hapart : r.RootsApart fs) {source : String}
    (hsource : r.naming.source source) : ¬ fs.spot r.outputRoot <+: fs.spot source := by
  obtain ⟨names, hextends⟩ := hsource
  rw [hextends.spot_eq]
  intro hbelow
  rcases List.prefix_or_prefix_of_prefix hbelow (List.prefix_append _ names) with hon | hon
  · exact hapart.not_below hon
  · exact hapart.not_above hon

/-- Where only files below the output root change, what can be read below the template root stays the
    same. -/
theorem read_iff_of_keepsFiles {t : FileSystem} {here : List String} (hapart : r.RootsApart fs)
    (hroot : fs.LeadsTo r.templateRoot here) (hkeeps : KeepsFiles (fs.spot r.outputRoot) fs t)
    {source : String} (hsource : r.naming.source source) (bytes : ByteArray) :
    t.read source = .ok bytes ↔ fs.read source = .ok bytes := by
  have hkept : ∀ place, place = fs.spot source →
      (t.lookup place = some (.file bytes) ↔ fs.lookup place = some (.file bytes)) :=
    fun place hplace => hkeeps.file_iff place (hplace ▸ not_below_of_source hapart hsource) bytes
  rw [read_eq_ok_iff, read_eq_ok_iff]
  constructor
  · rintro ⟨place, hresolve, hfile⟩
    have hplace : place = t.spot source := eq_spot_of_resolve hresolve
    rw [spot_congr hkeeps.grows.workDir] at hplace
    have hfile := (hkept place hplace).1 hfile
    obtain ⟨names, hextends⟩ := hsource
    exact ⟨place, hextends.resolve_found_of_grown hroot hkeeps.grows hresolve (by simp [hfile]),
      hfile⟩
  · rintro ⟨place, hresolve, hfile⟩
    exact ⟨place, resolve_found_of_growsBelow hkeeps.grows hresolve,
      (hkept place (eq_spot_of_resolve hresolve)).2 hfile⟩

/-! ## Files that are kept -/

theorem keepsFiles_of_changes {item : Item} {done : FileSystem} (h : item.Changes fs done)
    (hitem : item.IsWithin r.naming) : KeepsFiles (fs.spot r.outputRoot) fs done := by
  cases h with
  | nothing => exact .refl _ fs
  | directory target => exact .of_addsDirectories (addsDirectories_makeDirectories fs target)
  | parent htarget => exact .of_addsDirectories (addsDirectories_makeParent fs _)
  | @file _ target place bytes _ htarget hopens hwrites =>
    have hparent := addsDirectories_makeParent fs target
    have hbelow := below_of_file (hitem.file htarget) hopens
    rw [spot_congr hparent.workDir] at hbelow
    exact (KeepsFiles.of_addsDirectories hparent).trans (.of_writes hopens hwrites hbelow)

theorem keepsFiles_performAll (fs : FileSystem) {items : List Item}
    (hitems : ∀ item ∈ items, item.IsWithin r.naming) :
    KeepsFiles (fs.spot r.outputRoot) fs (r.performAll items fs).2 := by
  induction items generalizing fs with
  | nil => exact .refl _ fs
  | cons item items ih =>
    have hfirst := keepsFiles_of_changes (changes_perform r item fs) (hitems item List.mem_cons_self)
    have hrest := ih (r.perform item fs).2 fun other hother =>
      hitems other (List.mem_cons_of_mem _ hother)
    rw [spot_congr hfirst.grows.workDir] at hrest
    rw [performAll_cons]
    exact hfirst.trans hrest

/-- Operations between paths of names keep all files outside the output root. -/
theorem keepsFiles_operations {ops : List Operation} (hops : ∀ op ∈ ops, op.IsNamed)
    (hfs : fs.WellFormed) :
    KeepsFiles (fs.spot r.outputRoot) fs (Step.seq (ops.map r.runOperation) fs).2 := by
  rw [performs_operations r ops fs]
  exact keepsFiles_performAll fs (stays_operations (fun op hop => admits_naming (hops op hop)) fs hfs)

end Runner

end Scaffold
