import Scaffold.Proofs.Project.Twice
import Scaffold.Proofs.Run.Refiltering
import Scaffold.Proofs.Template.References

set_option autoImplicit false

/-! # What the identifiers change

The identifiers of a project come into its creation through the filter alone. The filter is applied
to the lines of the manifest and to the texts of files of the template, so where none of these refers
to an identifier, the creation is the same whatever the identifiers are (`create_withIds`): the same
operations, the same report and log, the same files. -/

namespace Scaffold

open FileSystem

namespace ProjectPlan

variable {plan : ProjectPlan} {fs base : FileSystem}

/-- The plan with other identifiers. -/
def withIds (plan : ProjectPlan) (ids : ProjectIds) : ProjectPlan :=
  { plan with ids := ids }

@[simp]
theorem options_withIds (plan : ProjectPlan) (ids : ProjectIds) :
    (plan.withIds ids).options = plan.options := rfl

@[simp]
theorem manifestPath_withIds (plan : ProjectPlan) (ids : ProjectIds) :
    (plan.withIds ids).manifestPath = plan.manifestPath := rfl

@[simp]
theorem templateDir_withIds (plan : ProjectPlan) (ids : ProjectIds) :
    (plan.withIds ids).templateDir = plan.templateDir := rfl

@[simp]
theorem projectRoot_withIds (plan : ProjectPlan) (ids : ProjectIds) :
    (plan.withIds ids).projectRoot = plan.projectRoot := rfl

/-- No line of the manifest and no file below the directory of template files refers to an
    identifier. -/
structure LeavesIdsOut (plan : ProjectPlan) (fs : FileSystem) : Prop where
  lines : ∀ text, fs.readText plan.manifestPath = .ok text →
    ∀ line ∈ ManifestLine.readLines text, ¬ RefersTo idNames line
  files : ∀ names bytes text, names ≠ [] →
    fs.lookup (fs.spot plan.templateDir ++ names) = some (.file bytes) →
    Utf8.decode (Utf8.dropMark bytes) = .ok text → ¬ RefersTo idNames text

theorem filter_withIds {text : String} (h : ¬ RefersTo idNames text) (ids : ProjectIds) :
    (plan.withIds ids).filter text = plan.filter text :=
  substitute_forProject h plan.ids ids

theorem readAll_withIds {text : String}
    (h : ∀ line ∈ ManifestLine.readLines text, ¬ RefersTo idNames line) (ids : ProjectIds) :
    ManifestLine.readAll (plan.withIds ids).filter text =
      ManifestLine.readAll plan.filter text := by
  rw [ManifestLine.readAll_eq_map, ManifestLine.readAll_eq_map]
  refine List.map_congr_left fun line hline => ?_
  rw [filter_withIds (h line hline)]

theorem loadLines_withIds (h : plan.LeavesIdsOut fs) (ids : ProjectIds) :
    Manifest.loadLines (plan.withIds ids).filter plan.manifestPath fs =
      Manifest.loadLines plan.filter plan.manifestPath fs := by
  unfold Manifest.loadLines
  cases htext : fs.readText plan.manifestPath with
  | error cause => rfl
  | ok text =>
    dsimp only
    rw [readAll_withIds (h.lines text htext)]

/-- Making the project's directory changes no file of the template. -/
theorem sameTexts_withIds (h : plan.LeavesIdsOut fs)
    (hmade : fs.makeDirectories plan.projectRoot = (.ok (), base)) (ids : ProjectIds) :
    Runner.SameTexts base (base.spot plan.templateDir) plan.filter (plan.withIds ids).filter := by
  have hadds := addsDirectories_makeDirectories fs plan.projectRoot
  rw [hmade] at hadds
  intro names bytes text hne hfile htext
  rw [spot_congr hadds.workDir] at hfile
  exact filter_withIds (h.files names bytes text hne (hadds.file_iff.1 hfile) htext) ids

theorem sameBelow_runSets {origin : String} {here top : List String}
    (hstage : plan.runner.Stage base origin here top) {manifest : Manifest}
    (hnamed : ∀ op, manifest.Mentions op → op.IsNamed) {ids : ProjectIds}
    (htexts : Runner.SameTexts base (base.spot plan.templateDir) plan.filter
      (plan.withIds ids).filter) :
    SameBelow base top (plan.runSets manifest) ((plan.withIds ids).runSets manifest) := by
  have hrun : ∀ set : OperationSet, (∀ op ∈ set.operations, manifest.Mentions op) →
      SameBelow base top (plan.runner.run set) ((plan.withIds ids).runner.run set) := by
    intro set hset
    exact Runner.sameBelow_run hstage htexts fun op hop => hnamed op (hset op hop)
  have hmain := hrun manifest.main fun op hop => Or.inl hop
  simp only [runSets, options_withIds]
  refine hmain.cons ?_
  cases hset : manifest.section? plan.options.scene.sectionName with
  | none => exact (sameBelow_tell _).cons (sameBelow_tell [])
  | some set =>
    have hsection := hrun set fun op hop => Or.inr ⟨_, set, hset, hop⟩
    exact (sameBelow_tell _).cons (hsection.cons (sameBelow_tell []))

/-- Where nothing in the template refers to an identifier, a project is created in the same way
    whatever its identifiers are. -/
theorem create_withIds (plan : ProjectPlan) (fs : FileSystem) (hfs : fs.WellFormed)
    (hapart : plan.RootsApart fs) (hplain : plan.PathsPlain fs) (hout : plan.LeavesIdsOut fs)
    (ids : ProjectIds) : (plan.withIds ids).create fs = plan.create fs := by
  unfold create
  simp only [manifestPath_withIds, projectRoot_withIds, templateDir_withIds,
    loadLines_withIds hout ids]
  cases hlines : Manifest.loadLines plan.filter plan.manifestPath fs with
  | error error => rfl
  | ok lines =>
    rcases hmade : fs.makeDirectories plan.projectRoot with ⟨cause | _, base⟩
    · rfl
    have hload : Manifest.load plan.filter plan.manifestPath fs = .ok (.ofLines lines) := by
      simp [Manifest.load, hlines, Except.map]
    obtain ⟨text, htext, -⟩ := load_eq_ok_iff.1 hload
    obtain ⟨bytes, hread⟩ := exists_read_of_readText htext
    obtain ⟨here, top, hstage⟩ := exists_stage hfs hapart hread hmade
    have hsame := sameBelow_runSets hstage (fun op hop => hplain.isNamed hload hop)
      (sameTexts_withIds hout hmade ids)
    obtain ⟨hsets, -⟩ := hsame base (.refl top base)
    simp only [hsets]
    rfl

/-! ## A template with references -/

/-- The manifest of a template that refers to the program's name. -/
def greetingManifest : String := "F: a.txt : $\x7b\x7bProgramName\x7d\x7d.txt"

/-- A text that refers to the title. -/
def greetingText : String := "Welcome to $\x7b\x7bGameTitle\x7d\x7d."

/-- A template with one file to be filtered. -/
def greetingFiles : FileSystem :=
  let fs := ((FileSystem.mk [] []).makeDirectories "/tpl/Project").2
  let fs := (fs.write "/tpl/Template.txt" greetingManifest.toUTF8).2
  (fs.write "/tpl/Project/a.txt" greetingText.toUTF8).2

theorem greetingFiles_wellFormed : greetingFiles.WellFormed := by
  unfold greetingFiles
  have hmade := wellFormed_makeDirectories wellFormed_empty "/tpl/Project"
  exact wellFormed_write (wellFormed_write hmade _ _) _ _

/-- There are no files but the two that were written. -/
theorem greetingFiles_files {place : List String} {bytes : ByteArray}
    (h : greetingFiles.lookup place = some (.file bytes)) :
    bytes = greetingText.toUTF8 ∨ bytes = greetingManifest.toUTF8 := by
  rcases file_of_write h with ⟨-, htext⟩ | h
  · exact Or.inl htext
  rcases file_of_write h with ⟨-, hmanifest⟩ | h
  · exact Or.inr hmanifest
  -- nothing was there before the directories were made
  rw [(addsDirectories_makeDirectories _ _).file_iff] at h
  cases place <;> simp [lookup, node?, Node.at?, Node.entry, Node.children, Keyed.find] at h

/-- What there is to begin with, and what the creation comes to. -/
theorem greetingFiles_given :
    LieApart (greetingFiles.spot appPlan.projectRoot)
        (greetingFiles.spot appPlan.roots.templateRoot) ∧
      greetingFiles.readText appPlan.manifestPath = .ok greetingManifest ∧
      ManifestLine.readAll appPlan.filter greetingManifest =
        [.operation ⟨.filterFile, ⟨⟨["a.txt"]⟩, ⟨["App.txt"]⟩⟩⟩] ∧
      (appPlan.create greetingFiles).result = .ok ⟨1, []⟩ ∧
      (appPlan.create greetingFiles).fs.readText "/eng/App/App.txt" =
        .ok "Welcome to App." := by
  decide +kernel

theorem not_refersTo_greeting :
    (∀ line ∈ ManifestLine.readLines greetingManifest, ¬ RefersTo idNames line) ∧
      Utf8.decode (Utf8.dropMark greetingText.toUTF8) = .ok greetingText ∧
      ¬ RefersTo idNames greetingText ∧
      Utf8.decode (Utf8.dropMark greetingManifest.toUTF8) = .ok greetingManifest ∧
      ¬ RefersTo idNames greetingManifest := by
  decide +kernel

theorem greetingFiles_pathsPlain : appPlan.PathsPlain greetingFiles := by
  obtain ⟨-, htext, hlines, -⟩ := greetingFiles_given
  refine pathsPlain_of_readText htext fun op hop => ?_
  rw [hlines, List.mem_singleton, ManifestLine.operation.injEq] at hop
  rw [hop]
  unfold Operation.IsPlain IsStep
  decide

theorem greetingFiles_leavesIdsOut : appPlan.LeavesIdsOut greetingFiles := by
  obtain ⟨hlines, htext, hout, hmanifest, hout'⟩ := not_refersTo_greeting
  constructor
  · intro text hread
    rw [greetingFiles_given.2.1] at hread
    cases hread
    exact hlines
  · intro names bytes text _ hfile hdecode
    rcases greetingFiles_files hfile with rfl | rfl
    · rw [htext] at hdecode
      cases hdecode
      exact hout
    · rw [hmanifest] at hdecode
      cases hdecode
      exact hout'

/-- The references are replaced, and with other identifiers the same is created. -/
theorem create_withIds_greeting :
    greetingFiles.WellFormed ∧ appPlan.RootsApart greetingFiles ∧
      appPlan.PathsPlain greetingFiles ∧ appPlan.LeavesIdsOut greetingFiles ∧
      (appPlan.withIds ⟨"1", "2", "3", "4"⟩).create greetingFiles =
        appPlan.create greetingFiles ∧
      (appPlan.create greetingFiles).result = .ok ⟨1, []⟩ ∧
      (appPlan.create greetingFiles).fs.readText "/eng/App/App.txt" =
        .ok "Welcome to App." := by
  obtain ⟨hspots, -, -, hresult, hfile⟩ := greetingFiles_given
  have hapart := rootsApart_of_spots hspots
  exact ⟨greetingFiles_wellFormed, hapart, greetingFiles_pathsPlain, greetingFiles_leavesIdsOut,
    create_withIds appPlan greetingFiles greetingFiles_wellFormed hapart
      greetingFiles_pathsPlain greetingFiles_leavesIdsOut _, hresult, hfile⟩

end ProjectPlan

end Scaffold
