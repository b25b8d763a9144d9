import Scaffold.Proofs.CommandLine.ExitCode
import Scaffold.Proofs.Project.Accounting
import Scaffold.Proofs.Run.Containment

set_option autoImplicit false

/-! # Projects stay inside the engine root

The options that finalizing lets through place the project below an engine root that exists, as long
as the project's directory and the targets in the manifest do not lead out of it; then a creation
changes nothing outside the engine root (`create_inside`). Neither is checked: a directory that leads
up is accepted like any other, and the project comes to stand where it leads. -/

namespace Scaffold

open FileSystem

namespace ProjectPlan

variable {plan : ProjectPlan} {fs : FileSystem}

/-- The project's directory and the targets of the operations that will run stay inside the engine
    root. -/
structure StaysInside (plan : ProjectPlan) (fs : FileSystem) : Prop where
  projectRoot : fs.StaysInside (fs.spot plan.roots.engineRoot) plan.projectRoot
  target : ∀ manifest, Manifest.load plan.filter plan.manifestPath fs = .ok manifest →
    ∀ op ∈ plan.operations manifest,
      fs.StaysInside (fs.spot plan.roots.engineRoot) (plan.runner.targetOf op)

/-- The project's directory is given relative to the engine root, and neither it nor a target has a
    piece that leads up. -/
structure GoesDown (plan : ProjectPlan) (fs : FileSystem) : Prop where
  isAbsolute : Path.isAbsolute plan.options.projectDir.toList = false
  up_not_mem : ".." ∉ pieces plan.options.projectDir
  target : ∀ manifest, Manifest.load plan.filter plan.manifestPath fs = .ok manifest →
    ∀ op ∈ plan.operations manifest, ".." ∉ op.transfer.target.segments

/-! ## The engine root -/

/-- An engine root that was accepted is there. -/
theorem isRoot_of_finalize {d : Draft} {options : ProjectOptions} {roots : Roots}
    (h : d.finalize fs = .ok (options, roots)) :
    fs.IsRoot roots.engineRoot (fs.spot roots.engineRoot) := by
  obtain ⟨hproblems, -, rfl⟩ := Draft.finalize_eq_ok_iff.1 h
  have hroots := (List.append_eq_nil_iff.1 hproblems).2
  have hengine := (List.append_eq_nil_iff.1 hroots).1
  refine isRoot_of_isDirectory ?_
  by_contra hnot
  rw [if_neg hnot] at hengine
  simp at hengine

theorem mentions_of_mem_operations {manifest : Manifest} {op : Operation}
    (h : op ∈ plan.operations manifest) : manifest.Mentions op := by
  rcases List.mem_append.1 h with hmain | hsection
  · exact Or.inl hmain
  · split at hsection
    · next set hset => exact Or.inr ⟨_, set, hset, hsection⟩
    · exact absurd hsection List.not_mem_nil

/-- What goes down from a directory stays inside it. -/
theorem GoesDown.staysInside (h : plan.GoesDown fs)
    (hroot : fs.IsRoot plan.roots.engineRoot (fs.spot plan.roots.engineRoot)) :
    plan.StaysInside fs := by
  have hproject : Descends plan.roots.engineRoot plan.projectRoot _ :=
    (Descends.refl _).join_relative h.isAbsolute h.up_not_mem
  refine ⟨hproject.staysInside hroot, fun manifest hload op hop => ?_⟩
  have hup := h.target manifest hload op hop
  obtain ⟨text, -, rfl⟩ := load_eq_ok_iff.1 hload
  obtain ⟨-, target, -, htarget⟩ :=
    Manifest.exists_parse?_of_mentions (mentions_of_mem_operations hop)
  have hbelow := Runner.descends_below plan.projectRoot (PathSpec.segments_of_parse? htarget).2 hup
  exact (hproject.trans hbelow).staysInside hroot

/-! ## Creations -/

/-- The sets run their operations, and what else happens between them changes nothing. -/
theorem runSets_snd (plan : ProjectPlan) (manifest : Manifest) (fs : FileSystem) :
    (plan.runSets manifest fs).2 =
      (Step.seq ((plan.operations manifest).map plan.runner.runOperation) fs).2 := by
  unfold operations
  rw [List.map_append, Step.seq_append]
  unfold runSets
  cases manifest.section? plan.options.scene.sectionName with
  | some set => rfl
  | none => rfl

theorem growsBelow_create (hfs : fs.WellFormed) (h : plan.StaysInside fs) :
    GrowsBelow (fs.spot plan.roots.engineRoot) fs (plan.create fs).fs := by
  have hmakes := h.projectRoot.addsDirectories_makeDirectories.growsBelow
  rcases create_cases plan fs with ⟨error, -, -, hdone⟩ | ⟨manifest, hload, hmade⟩
  · rw [hdone]
    exact .refl _ fs
  rcases hmade with ⟨cause, made, hmade, -, hdone⟩ | ⟨made, hmade, -, hdone⟩
  · rw [hmade] at hmakes
    rwa [hdone]
  · have hwell := wellFormed_makeDirectories hfs plan.projectRoot
    rw [hmade] at hmakes hwell
    rw [hdone, runSets_snd]
    refine hmakes.trans (Runner.growsBelow_operations hwell fun op hop => ?_)
    exact (h.target manifest hload op hop).of_growsBelow hmakes

/-- A creation by options that were accepted changes nothing outside the engine root, if the project's
    directory and the targets in the manifest stay inside. They do if they go down. -/
theorem create_inside {d : Draft} {fs : FileSystem} {options : ProjectOptions} {roots : Roots}
    (hfs : fs.WellFormed) (haccepted : d.finalize fs = .ok (options, roots)) (ids : ProjectIds)
    (overwrite : Bool) :
    (GoesDown ⟨options, roots, ids, overwrite⟩ fs →
      StaysInside ⟨options, roots, ids, overwrite⟩ fs) ∧
    (StaysInside ⟨options, roots, ids, overwrite⟩ fs →
      ∀ place, ¬ fs.spot roots.engineRoot <+: place →
        (create ⟨options, roots, ids, overwrite⟩ fs).fs.lookup place = fs.lookup place) := by
  constructor
  · intro hdown
    exact hdown.staysInside (isRoot_of_finalize haccepted)
  · intro hinside place hplace
    exact (growsBelow_create hfs hinside).outside place hplace

/-! ## Inside and outside -/

/-- The template with one file, and an engine root. -/
def engineFiles : FileSystem :=
  (copyAndFilterFiles.makeDirectories "/eng").2

/-- What is given for a project in the directory. -/
def draftIn (projectDir : String) : Draft :=
  { Draft.empty with
    programName := some "App"
    projectDir := some projectDir
    engineRoot := some "/eng"
    templateRoot := some "/tpl" }

/-- The plan for a project in the directory. -/
def planIn (projectDir : String) : ProjectPlan :=
  { appPlan with options := { appPlan.options with projectDir := projectDir } }

theorem engineFiles_wellFormed : engineFiles.WellFormed :=
  wellFormed_makeDirectories copyAndFilterFiles_wellFormed "/eng"

/-- A project in a directory of the engine root: the draft is accepted, and the operations of the
    manifest go down. -/
theorem planIn_inner :
    (draftIn "games/App").finalize engineFiles =
        .ok ((planIn "games/App").options, (planIn "games/App").roots) ∧
      Path.isAbsolute "games/App".toList = false ∧ ".." ∉ pieces "games/App" ∧
      engineFiles.readText (planIn "games/App").manifestPath = .ok "C: a.txt\nF: a.txt : b.txt" ∧
      ∀ op ∈ (planIn "games/App").operations
          (Manifest.parse (planIn "games/App").filter "C: a.txt\nF: a.txt : b.txt"),
        ".." ∉ op.transfer.target.segments := by
  rw [Draft.finalize_eq_ok_iff]
  decide +kernel

theorem planIn_inner_goesDown : (planIn "games/App").GoesDown engineFiles := by
  obtain ⟨-, hrelative, hup, hread, htargets⟩ := planIn_inner
  refine ⟨hrelative, hup, fun manifest hload => ?_⟩
  obtain ⟨text, htext, rfl⟩ := load_eq_ok_iff.1 hload
  obtain rfl := Except.ok.inj (hread.symm.trans htext)
  exact htargets

/-- The template stands outside the engine root and stays as it is, though it is read. -/
theorem create_inside_inner : engineFiles.WellFormed ∧
    (draftIn "games/App").finalize engineFiles =
      .ok ((planIn "games/App").options, (planIn "games/App").roots) ∧
    (planIn "games/App").StaysInside engineFiles ∧
    ¬ engineFiles.spot (planIn "games/App").roots.engineRoot <+: ["tpl", "Project", "a.txt"] ∧
    ((planIn "games/App").create engineFiles).fs.lookup ["tpl", "Project", "a.txt"] =
      engineFiles.lookup ["tpl", "Project", "a.txt"] := by
  have haccepted := planIn_inner.1
  obtain ⟨hdown, hsame⟩ := create_inside engineFiles_wellFormed haccepted (planIn "games/App").ids
    (planIn "games/App").overwrite
  have hinside := hdown planIn_inner_goesDown
  have hplace :
      ¬ engineFiles.spot (planIn "games/App").roots.engineRoot <+: ["tpl", "Project", "a.txt"] := by
    decide +kernel
  exact ⟨engineFiles_wellFormed, haccepted, hinside, hplace, hsame hinside _ hplace⟩

/-- A directory next to the engine root is accepted too, and the project is created there. -/
theorem exists_create_outside : ∃ (d : Draft) (fs : FileSystem) (options : ProjectOptions)
    (roots : Roots) (ids : ProjectIds) (overwrite : Bool) (place : List String),
    fs.WellFormed ∧ d.finalize fs = .ok (options, roots) ∧
      ¬ fs.spot roots.engineRoot <+: place ∧ fs.lookup place = none ∧
      (create ⟨options, roots, ids, overwrite⟩ fs).fs.lookup place =
        some (.file "text".toUTF8) := by
  refine ⟨draftIn "../other", engineFiles, (planIn "../other").options, appPlan.roots,
    appPlan.ids, false, ["other", "a.txt"], engineFiles_wellFormed, ?_⟩
  rw [Draft.finalize_eq_ok_iff]
  decide +kernel

end ProjectPlan

end Scaffold
