import Scaffold.Proofs.FileSystem.Spots
import Scaffold.Proofs.Project.Creation
import Scaffold.Proofs.Run.Operations

set_option autoImplicit false

/-! # Creating a project twice

A project that was created is not changed by creating it once more, as long as its directory and the
template lie apart and the manifest's paths go nowhere but down. The manifest is read as before, the
project's directory is there already, and every step of the run has settled. -/

namespace Scaffold

open FileSystem

namespace ProjectPlan

/-- Once the project's directory is made, it lies apart from the template. -/
def RootsApart (plan : ProjectPlan) (fs : FileSystem) : Prop :=
  ∀ top here, (fs.makeDirectories plan.projectRoot).2.LeadsTo plan.projectRoot top →
    (fs.makeDirectories plan.projectRoot).2.LeadsTo plan.roots.templateRoot here →
    LieApart top here

/-- The manifest of the template names no path with a dot or a parent segment. -/
def PathsPlain (plan : ProjectPlan) (fs : FileSystem) : Prop :=
  ∀ manifest, Manifest.load plan.filter plan.manifestPath fs = .ok manifest → manifest.IsPlain

/-- What happens while the sets of the manifest run. -/
def events (plan : ProjectPlan) (fs : FileSystem) : List Event :=
  match Manifest.load plan.filter plan.manifestPath fs with
  | .error _ => []
  | .ok manifest => (plan.runSets manifest (fs.makeDirectories plan.projectRoot).2).1

variable {plan : ProjectPlan} {fs base : FileSystem}

theorem events_of_ok {manifest : Manifest}
    (hload : Manifest.load plan.filter plan.manifestPath fs = .ok manifest)
    (hmade : fs.makeDirectories plan.projectRoot = (.ok (), base)) :
    plan.events fs = (plan.runSets manifest base).1 := by
  unfold events
  rw [hload, hmade]

/-- Whether the roots lie apart can be told before anything is made. -/
theorem rootsApart_of_spots
    (h : LieApart (fs.spot plan.projectRoot) (fs.spot plan.roots.templateRoot)) :
    plan.RootsApart fs := by
  intro top here htop hhere
  have hworkDir := (addsDirectories_makeDirectories fs plan.projectRoot).workDir
  rwa [htop.eq_spot, hhere.eq_spot, spot_congr hworkDir, spot_congr hworkDir]

theorem pathsPlain_of_readText {text : String} (hread : fs.readText plan.manifestPath = .ok text)
    (h : ∀ op, .operation op ∈ ManifestLine.readAll plan.filter text → op.IsPlain) :
    plan.PathsPlain fs := by
  intro manifest hload op hop
  obtain ⟨other, hother, rfl⟩ := load_eq_ok_iff.1 hload
  obtain rfl := Except.ok.inj (hother.symm.trans hread)
  exact h op (Manifest.mem_of_mentions_ofLines hop)

theorem PathsPlain.isNamed (h : plan.PathsPlain fs) {manifest : Manifest}
    (hload : Manifest.load plan.filter plan.manifestPath fs = .ok manifest) {op : Operation}
    (hop : manifest.Mentions op) : op.IsNamed := by
  have hplain := h manifest hload op hop
  obtain ⟨text, -, rfl⟩ := load_eq_ok_iff.1 hload
  exact Manifest.isNamed_of_mentions hop hplain

/-! ## Once more -/

theorem manifestPath_extends (plan : ProjectPlan) :
    ExtendsToName plan.roots.templateRoot plan.manifestPath ["Template.txt"] :=
  (Extends.refl plan.roots.templateRoot).join_name
    ⟨by decide, by decide, by decide, by decide⟩

theorem templateDir_extends (plan : ProjectPlan) :
    Extends plan.roots.templateRoot plan.templateDir ["Project"] :=
  (Extends.refl plan.roots.templateRoot).join ⟨by decide, by decide, by decide, by decide⟩

/-- Where a manifest can be read, the template root leads to the directory it stands in. -/
theorem exists_leadsTo_of_read {bytes : ByteArray} (h : fs.read plan.manifestPath = .ok bytes) :
    ∃ here, fs.LeadsTo plan.roots.templateRoot here := by
  obtain ⟨place, hplace, -⟩ := read_eq_ok_iff.1 h
  exact plan.manifestPath_extends.toExtends.exists_leadsTo hplace

/-- After the project's directory was made, everything is ready for the run. -/
theorem exists_stage (hfs : fs.WellFormed) (hapart : plan.RootsApart fs) {bytes : ByteArray}
    (hread : fs.read plan.manifestPath = .ok bytes)
    (hmade : fs.makeDirectories plan.projectRoot = (.ok (), base)) :
    ∃ here top, plan.runner.Stage base plan.roots.templateRoot here top := by
  have hadds := addsDirectories_makeDirectories fs plan.projectRoot
  have hwellFormed := wellFormed_makeDirectories hfs plan.projectRoot
  unfold RootsApart at hapart
  rw [hmade] at hadds hwellFormed hapart
  obtain ⟨top, htop⟩ := exists_isRoot_of_makeDirectories hmade (hwellFormed.lookup_start _)
  -- the manifest could be read, so the template root leads somewhere
  obtain ⟨here, hhere⟩ := exists_leadsTo_of_read (read_of_addsDirectories hadds hread)
  exact ⟨here, top, htop, hhere, ⟨_, plan.templateDir_extends⟩, hapart top here htop.leadsTo hhere,
    hwellFormed⟩

/-- Growth in the project's directory leaves the manifest what it was. -/
theorem load_of_growsBelow {here top : List String} {manifest : Manifest} {t : FileSystem}
    (hstage : plan.runner.Stage base plan.roots.templateRoot here top)
    (hmade : fs.makeDirectories plan.projectRoot = (.ok (), base))
    (hload : Manifest.load plan.filter plan.manifestPath fs = .ok manifest)
    (hgrows : GrowsBelow top base t) :
    Manifest.load plan.filter plan.manifestPath t = .ok manifest := by
  obtain ⟨text, htext, hparse⟩ := load_eq_ok_iff.1 hload
  obtain ⟨bytes, hread⟩ := exists_read_of_readText htext
  have hadds := addsDirectories_makeDirectories fs plan.projectRoot
  rw [hmade] at hadds
  have hlater : t.read plan.manifestPath = fs.read plan.manifestPath :=
    calc t.read plan.manifestPath
      _ = base.read plan.manifestPath :=
        read_of_lieApart plan.manifestPath_extends.toExtends hstage.template hstage.apart hgrows
      _ = .ok bytes := read_of_addsDirectories hadds hread
      _ = fs.read plan.manifestPath := hread.symm
  exact load_eq_ok_iff.2 ⟨text, (readText_congr hlater).trans htext, hparse⟩

/-- The runs of a creation settle. -/
theorem settles_runSets {here top : List String}
    (hstage : plan.runner.Stage base plan.roots.templateRoot here top) {manifest : Manifest}
    (hnamed : ∀ op, manifest.Mentions op → op.IsNamed) :
    Settles plan.overwrite base top (plan.runSets manifest) := by
  have hmain : Settles plan.overwrite base top (plan.runner.run manifest.main) :=
    Runner.settles_run hstage fun op hop => hnamed op (Or.inl hop)
  unfold runSets
  dsimp only
  refine hmain.cons (.seq fun step hstep => ?_)
  split at hstep
  · next set hset =>
    simp only [List.mem_cons, List.not_mem_nil, or_false] at hstep
    rcases hstep with rfl | rfl
    · exact settles_tell rfl
    · exact Runner.settles_run hstage fun op hop => hnamed op (Or.inr ⟨_, set, hset, hop⟩)
  · rw [List.mem_singleton.1 hstep]
    exact settles_tell rfl

/-- Creating a project once more succeeds and changes nothing. If copies may overwrite, both reports
    have the same numbers; otherwise only filtered files are written again, and the copies of the
    first time are passed over the second time. -/
theorem create_create (plan : ProjectPlan) (fs : FileSystem) (hfs : fs.WellFormed)
    (hapart : plan.RootsApart fs) (hplain : plan.PathsPlain fs) {report : Report}
    (hcreate : (plan.create fs).result = .ok report) :
    report = .ofEvents (plan.events fs) ∧
      (∀ place, (plan.create (plan.create fs).fs).fs.lookup place =
        (plan.create fs).fs.lookup place) ∧
      ∃ report', (plan.create (plan.create fs).fs).result = .ok report' ∧
        (plan.overwrite = true → report'.written = report.written ∧
          report'.skipped.length = report.skipped.length) ∧
        (plan.overwrite = false →
          report'.written = (plan.events fs).countP Event.isWrote ∧
          report'.skipped.length =
            report.skipped.length + (plan.events fs).countP Event.isCopied) := by
  obtain ⟨manifest, base, hload, hmade⟩ := exists_of_create hcreate
  obtain ⟨text, htext, -⟩ := load_eq_ok_iff.1 hload
  obtain ⟨bytes, hread⟩ := exists_read_of_readText htext
  obtain ⟨here, top, hstage⟩ := exists_stage hfs hapart hread hmade
  obtain ⟨hresult, hdone⟩ := create_of_ok hload hmade
  have hevents := events_of_ok hload hmade
  have hnamed : ∀ op, manifest.Mentions op → op.IsNamed := fun _ hop => hplain.isNamed hload hop
  have hsettles := settles_runSets hstage hnamed
  have hgrows := (hsettles base (.refl top base)).1
  -- the second creation reads the same manifest and finds the directory there
  have hloadAgain := load_of_growsBelow hstage hmade hload hgrows
  have hmadeAgain := makeDirectories_of_ok hmade hgrows
  obtain ⟨hresultAgain, hdoneAgain⟩ := create_of_ok hloadAgain hmadeAgain
  have hreport : report = .ofEvents (plan.events fs) := by
    rw [hevents]
    exact Except.ok.inj (hcreate.symm.trans hresult)
  have hcounts := hsettles.counts_again
  rw [← hevents] at hcounts
  rw [hdone]
  refine ⟨hreport, fun place => ?_, _, hresultAgain, fun hoverwrite => ?_, fun hoverwrite => ?_⟩
  · rw [hdoneAgain]
    exact hsettles.lookup_again place
  · rw [hoverwrite] at hcounts
    rw [hreport]
    exact hcounts.report_of_overwrite
  · rw [hoverwrite] at hcounts
    rw [hreport]
    exact hcounts.report_of_not_overwrite

/-! ## A copy and a filter -/

/-- A template with one file, and a manifest that has it copied and filtered. -/
def copyAndFilterFiles : FileSystem :=
  let fs := ((FileSystem.mk [] []).makeDirectories "/tpl/Project").2
  let fs := (fs.write "/tpl/Template.txt" "C: a.txt\nF: a.txt : b.txt".toUTF8).2
  (fs.write "/tpl/Project/a.txt" "text".toUTF8).2

/-- Creates the project `App` from the template next to it, without leave to overwrite. -/
def appPlan : ProjectPlan where
  options := .ofProgramName "App"
  roots := ⟨"/eng", "/tpl"⟩
  ids := ⟨"", "", "", ""⟩
  overwrite := false

theorem copyAndFilterFiles_wellFormed : copyAndFilterFiles.WellFormed := by
  unfold copyAndFilterFiles
  have hmade := wellFormed_makeDirectories wellFormed_empty "/tpl/Project"
  exact wellFormed_write (wellFormed_write hmade _ _) _ _

/-- What there is to begin with. -/
theorem copyAndFilterFiles_given :
    LieApart (copyAndFilterFiles.spot appPlan.projectRoot)
        (copyAndFilterFiles.spot appPlan.roots.templateRoot) ∧
      copyAndFilterFiles.readText appPlan.manifestPath = .ok "C: a.txt\nF: a.txt : b.txt" := by
  decide +kernel

/-- What the creation comes to. -/
theorem appPlan_create :
    (appPlan.create copyAndFilterFiles).result = .ok ⟨2, []⟩ ∧
      (appPlan.events copyAndFilterFiles).countP Event.isCopied = 1 ∧
      (appPlan.events copyAndFilterFiles).countP Event.isWrote = 1 := by
  decide +kernel

theorem appPlan_rootsApart : appPlan.RootsApart copyAndFilterFiles :=
  rootsApart_of_spots copyAndFilterFiles_given.1

theorem appPlan_pathsPlain : appPlan.PathsPlain copyAndFilterFiles := by
  refine pathsPlain_of_readText copyAndFilterFiles_given.2 fun op hop => ?_
  have hlines : ManifestLine.readAll appPlan.filter "C: a.txt\nF: a.txt : b.txt" =
      [.operation ⟨.copyFile, ⟨⟨["a.txt"]⟩, ⟨["a.txt"]⟩⟩⟩,
        .operation ⟨.filterFile, ⟨⟨["a.txt"]⟩, ⟨["b.txt"]⟩⟩⟩] := by
    decide +kernel
  rw [hlines] at hop
  simp only [List.mem_cons, List.not_mem_nil, or_false, ManifestLine.operation.injEq] at hop
  rcases hop with rfl | rfl
  · unfold Operation.IsPlain IsStep
    decide
  · unfold Operation.IsPlain IsStep
    decide

/-- The second time the filtered file is written again, and the copy is passed over. -/
theorem create_create_sample :
    copyAndFilterFiles.WellFormed ∧ appPlan.RootsApart copyAndFilterFiles ∧
      appPlan.PathsPlain copyAndFilterFiles ∧
      (appPlan.create copyAndFilterFiles).result = .ok ⟨2, []⟩ ∧
      (∀ place, (appPlan.create (appPlan.create copyAndFilterFiles).fs).fs.lookup place =
        (appPlan.create copyAndFilterFiles).fs.lookup place) ∧
      ∃ report', (appPlan.create (appPlan.create copyAndFilterFiles).fs).result = .ok report' ∧
        report'.written = 1 ∧ report'.skipped.length = 1 := by
  obtain ⟨hcreate, hcopied, hwrote⟩ := appPlan_create
  obtain ⟨-, hlookup, report', hresult, -, hnumbers⟩ :=
    create_create appPlan copyAndFilterFiles copyAndFilterFiles_wellFormed appPlan_rootsApart
      appPlan_pathsPlain hcreate
  obtain ⟨hwritten, hskipped⟩ := hnumbers rfl
  refine ⟨copyAndFilterFiles_wellFormed, appPlan_rootsApart, appPlan_pathsPlain, hcreate, hlookup,
    report', hresult, hwritten.trans hwrote, ?_⟩
  rw [hskipped, hcopied]
  rfl

end ProjectPlan

end Scaffold
