import Scaffold.CommandLine.Program
import Scaffold.Proofs.CommandLine.Arguments
import Scaffold.Proofs.FileSystem.Makeable
import Scaffold.Proofs.Project.Creation

set_option autoImplicit false

/-! # The exit code of a run

Whether a run of the program succeeds is settled before it writes any file: the usage is asked for,
or the options are valid, the manifest can be read and the directory of the project can be made
(`run_exitCode`). Items that are skipped come later and do not count. A run that fails leaves every
file as it is; all that it may leave behind are directories above that of the project. -/

namespace Scaffold

open FileSystem

/-! ## Creations -/

namespace ProjectPlan

variable {plan : ProjectPlan} {fs : FileSystem}

/-- A creation succeeds exactly if the manifest can be read and the project's directory can be
    made. -/
theorem exists_create_eq_ok_iff (plan : ProjectPlan) (fs : FileSystem)
    (hroot : Path.isAbsolute plan.projectRoot.toList = true) :
    (∃ report, (plan.create fs).result = .ok report) ↔
      (∃ text, fs.readText plan.manifestPath = .ok text) ∧ fs.CanMake plan.projectRoot := by
  have hne : plan.projectRoot ≠ "" := by
    intro hempty
    rw [hempty] at hroot
    exact absurd hroot (by decide)
  have hstart : fs.lookup (fs.start plan.projectRoot) = some .directory := by
    unfold start
    rw [if_pos hroot]
    exact lookup_nil fs
  rw [← exists_makeDirectories_iff hne hstart]
  constructor
  · rintro ⟨report, hreport⟩
    obtain ⟨manifest, base, hload, hmade⟩ := exists_of_create hreport
    obtain ⟨text, htext, -⟩ := load_eq_ok_iff.1 hload
    exact ⟨⟨text, htext⟩, base, hmade⟩
  · rintro ⟨⟨text, htext⟩, base, hmade⟩
    exact ⟨_, (create_of_ok (load_eq_ok_iff.2 ⟨text, htext, rfl⟩) hmade).1⟩

/-- A creation that fails changes nothing, or it could read the manifest and made directories above
    that of the project. -/
theorem fs_create_of_error {error : Error} (h : (plan.create fs).result = .error error) :
    (plan.create fs).fs = fs ∨
      (∃ text, fs.readText plan.manifestPath = .ok text) ∧
        Makes (Path.ancestors plan.projectRoot).tail fs (plan.create fs).fs := by
  rcases create_cases plan fs with ⟨other, -, -, hdone⟩ | ⟨manifest, hload, hmakes⟩
  · exact Or.inl hdone
  obtain ⟨text, htext, -⟩ := load_eq_ok_iff.1 hload
  rcases hmakes with ⟨cause, made, hmade, -, hdone⟩ | ⟨made, -, hresult, -⟩
  · rw [hdone]
    exact Or.inr ⟨⟨text, htext⟩, makes_of_makeDirectories_error hmade⟩
  · simp [hresult] at h

end ProjectPlan

/-! ## The directory of a project -/

namespace Draft

theorem isAbsolute_engineRoot (d : Draft) (fs : FileSystem) :
    Path.isAbsolute (d.roots fs).engineRoot.toList = true :=
  isAbsolute_absolute (isAbsolute_pathOf fs.workDir) _

end Draft

namespace Arguments

/-- The usage is asked for. -/
def AskForHelp (args : List String) : Prop :=
  ∃ name ∈ ArgumentOption.help.names, "-" ++ name ∈ args ∨ "--" ++ name ∈ args

/-- The options are valid, the manifest can be read as a text, and the directory of the project is
    there or can be made. -/
def CanCreate (a : Arguments) (fs : FileSystem) : Prop :=
  ∃ options roots, a.finalize fs = .ok (options, roots) ∧
    (∃ text, fs.readText (Path.join roots.templateRoot manifestName) = .ok text) ∧
    fs.CanMake (Path.join roots.engineRoot options.projectDir)

/-- The directory of the project cannot be made, and of the missing directories above it some come
    to be there from `fs` to `t`, while everything else stays as it is. -/
def FailsAtRoot (a : Arguments) (fs t : FileSystem) : Prop :=
  ∃ options roots, a.finalize fs = .ok (options, roots) ∧
    (∃ text, fs.readText (Path.join roots.templateRoot manifestName) = .ok text) ∧
    ¬ fs.CanMake (Path.join roots.engineRoot options.projectDir) ∧
    t.workDir = fs.workDir ∧
    ∀ place, t.lookup place ≠ fs.lookup place →
      fs.lookup place = none ∧ t.lookup place = some .directory ∧
        ∃ ancestor ∈ (Path.ancestors (Path.join roots.engineRoot options.projectDir)).tail,
          t.LeadsTo ancestor place

theorem isAbsolute_projectRoot {a : Arguments} {fs : FileSystem} {options : ProjectOptions}
    {roots : Roots} (h : a.finalize fs = .ok (options, roots)) (projectDir : String) :
    Path.isAbsolute (Path.join roots.engineRoot projectDir).toList = true := by
  obtain ⟨file, -, hfinal⟩ := finalize_eq_ok_iff.1 h
  obtain ⟨-, -, rfl⟩ := Draft.finalize_eq_ok_iff.1 hfinal
  exact isAbsolute_join_of_isAbsolute (Draft.isAbsolute_engineRoot _ fs) projectDir

/-! ## Runs -/

theorem exitCode_eq_one_iff (e : Ending) : e.exitCode = 1 ↔ e.exitCode ≠ 0 := by
  unfold Ending.exitCode
  split_ifs <;> simp

theorem help_ofCommandLine (args : List String) :
    (ofCommandLine args).help = true ↔ AskForHelp args :=
  isSet_ofCommandLine args (show ArgumentOption.help ∈ ArgumentOption.flags by decide)

theorem run_of_help {a : Arguments} (h : a.help = true) (ids : ProjectIds) (fs : FileSystem) :
    (a.run ids fs).exitCode = 0 ∧ (a.run ids fs).fs = fs := by
  unfold run
  rw [if_pos h]
  exact ⟨rfl, rfl⟩

/-- What a run comes to that does not show the usage: it fails before it changes anything, or it is
    a creation and succeeds if that does. -/
theorem run_cases {a : Arguments} (h : ¬ a.help = true) (ids : ProjectIds) (fs : FileSystem) :
    (∃ error, a.finalize fs = .error error ∧ (a.run ids fs).exitCode = 1 ∧
      (a.run ids fs).fs = fs) ∨
    ∃ options roots, a.finalize fs = .ok (options, roots) ∧
      (a.run ids fs).fs = (ProjectPlan.create ⟨options, roots, ids, a.force⟩ fs).fs ∧
      ((a.run ids fs).exitCode = 0 ↔
        ∃ report, (ProjectPlan.create ⟨options, roots, ids, a.force⟩ fs).result = .ok report) := by
  unfold run
  rw [if_neg h]
  dsimp only
  rcases hfinal : a.finalize fs with error | ⟨options, roots⟩
  · exact Or.inl ⟨error, rfl, rfl, rfl⟩
  right
  refine ⟨options, roots, rfl, ?_⟩
  unfold createProject
  dsimp only
  split
  · next error hresult => simp [hresult, Ending.exitCode]
  · next report hresult => simp [hresult, Ending.exitCode]

theorem exitCode_run_eq_zero_iff (args : List String) (ids : ProjectIds) (fs : FileSystem) :
    ((ofCommandLine args).run ids fs).exitCode = 0 ↔
      AskForHelp args ∨ (ofCommandLine args).CanCreate fs := by
  rw [← help_ofCommandLine]
  by_cases hhelp : (ofCommandLine args).help = true
  · simp [hhelp, run_of_help hhelp ids fs]
  rcases run_cases hhelp ids fs with ⟨error, hfinal, hcode, -⟩ | ⟨options, roots, hfinal, -, hcode⟩
  · simp [hhelp, hcode, CanCreate, hfinal]
  · have hroot := isAbsolute_projectRoot hfinal options.projectDir
    have hcreate := ProjectPlan.exists_create_eq_ok_iff
      ⟨options, roots, ids, (ofCommandLine args).force⟩ fs hroot
    rw [hcode, hcreate, CanCreate, hfinal]
    constructor
    · intro hready
      exact Or.inr ⟨options, roots, rfl, hready⟩
    · rintro (hshown | ⟨options', roots', hsame, hready⟩)
      · exact absurd hshown hhelp
      · cases hsame
        exact hready

/-- A run that fails changes nothing, unless the directory of the project cannot be made. -/
theorem fs_run_of_exitCode_eq_one {args : List String} {ids : ProjectIds} {fs : FileSystem}
    (h : ((ofCommandLine args).run ids fs).exitCode = 1) :
    ((ofCommandLine args).run ids fs).fs = fs ∨
      ∃ options roots, (ofCommandLine args).finalize fs = .ok (options, roots) ∧
        (∃ text, fs.readText (Path.join roots.templateRoot manifestName) = .ok text) ∧
        Makes (Path.ancestors (Path.join roots.engineRoot options.projectDir)).tail fs
          ((ofCommandLine args).run ids fs).fs := by
  rw [exitCode_eq_one_iff] at h
  by_cases hhelp : (ofCommandLine args).help = true
  · exact absurd (run_of_help hhelp ids fs).1 h
  rcases run_cases hhelp ids fs with ⟨error, -, -, hdone⟩ | ⟨options, roots, hfinal, hdone, hcode⟩
  · exact Or.inl hdone
  rw [hdone]
  rcases hresult : (ProjectPlan.create ⟨options, roots, ids, (ofCommandLine args).force⟩ fs).result
    with error | report
  · refine (ProjectPlan.fs_create_of_error hresult).imp id fun hmade => ?_
    exact ⟨options, roots, hfinal, hmade⟩
  · exact absurd (hcode.2 ⟨report, hresult⟩) h

/-- The exit code of the program, and what a run that fails leaves behind. -/
theorem run_exitCode (args : List String) (ids : ProjectIds) (fs : FileSystem) :
    (((ofCommandLine args).run ids fs).exitCode = 0 ↔
      AskForHelp args ∨ (ofCommandLine args).CanCreate fs) ∧
    (((ofCommandLine args).run ids fs).exitCode = 1 ↔
      ¬ (AskForHelp args ∨ (ofCommandLine args).CanCreate fs)) ∧
    (AskForHelp args → ((ofCommandLine args).run ids fs).fs = fs) ∧
    (((ofCommandLine args).run ids fs).exitCode = 1 →
      (∀ place bytes, ((ofCommandLine args).run ids fs).fs.lookup place = some (.file bytes) ↔
        fs.lookup place = some (.file bytes)) ∧
      (((ofCommandLine args).run ids fs).fs = fs ∨
        (ofCommandLine args).FailsAtRoot fs ((ofCommandLine args).run ids fs).fs)) ∧
    ∀ options roots report, (ofCommandLine args).finalize fs = .ok (options, roots) →
      (ProjectPlan.create ⟨options, roots, ids, (ofCommandLine args).force⟩ fs).result =
        .ok report → ((ofCommandLine args).run ids fs).exitCode = 0 := by
  have hzero := exitCode_run_eq_zero_iff args ids fs
  have hone : ((ofCommandLine args).run ids fs).exitCode = 1 ↔
      ¬ (AskForHelp args ∨ (ofCommandLine args).CanCreate fs) := by
    rw [exitCode_eq_one_iff, Ne, hzero]
  refine ⟨hzero, hone, fun hhelp => ?_, fun hfails => ?_,
    fun options roots report hfinal hresult => ?_⟩
  · exact (run_of_help ((help_ofCommandLine args).2 hhelp) ids fs).2
  · have hnot := hone.1 hfails
    rcases fs_run_of_exitCode_eq_one hfails with hsame | ⟨options, roots, hfinal, htext, hmakes⟩
    · rw [hsame]
      exact ⟨fun _ _ => Iff.rfl, Or.inl rfl⟩
    · refine ⟨fun _ _ => hmakes.addsDirectories.file_iff, Or.inr ⟨options, roots, hfinal, htext,
        fun hcan => ?_, hmakes.addsDirectories.workDir, fun _ hplace => hmakes.changed hplace⟩⟩
      exact hnot (Or.inr ⟨options, roots, hfinal, htext, hcan⟩)
  · have hroot := isAbsolute_projectRoot hfinal options.projectDir
    have hcreate := ProjectPlan.exists_create_eq_ok_iff
      ⟨options, roots, ids, (ofCommandLine args).force⟩ fs hroot
    obtain ⟨htext, hcan⟩ := hcreate.1 ⟨report, hresult⟩
    exact hzero.2 (Or.inr ⟨options, roots, hfinal, htext, hcan⟩)

end Arguments

end Scaffold
