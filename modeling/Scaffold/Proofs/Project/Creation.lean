import Scaffold.Project.Create
import Scaffold.Proofs.Run.Growing

set_option autoImplicit false

/-! # How a creation ends

The manifest is read and the project's directory is made before anything else, and if either fails
the creation fails (`create_cases`). From then on nothing makes it fail any more, and what every run
keeps is kept by the whole. -/

namespace Scaffold

open FileSystem

namespace ProjectPlan

variable {plan : ProjectPlan} {fs base : FileSystem}

theorem load_eq_ok_iff {filter : TextFilter} {path : String} {manifest : Manifest} :
    Manifest.load filter path fs = .ok manifest ↔
      ∃ text, fs.readText path = .ok text ∧ manifest = Manifest.parse filter text := by
  unfold Manifest.load Manifest.loadLines
  cases fs.readText path with
  | error cause => simp [Except.map]
  | ok text => simp [Except.map, Manifest.parse, eq_comm]

theorem create_cases (plan : ProjectPlan) (fs : FileSystem) :
    (∃ error, Manifest.load plan.filter plan.manifestPath fs = .error error ∧
      (plan.create fs).result = .error error ∧ (plan.create fs).fs = fs) ∨
    ∃ manifest, Manifest.load plan.filter plan.manifestPath fs = .ok manifest ∧
      ((∃ cause made, fs.makeDirectories plan.projectRoot = (.error cause, made) ∧
          (plan.create fs).result = .error (.projectRoot plan.projectRoot cause) ∧
          (plan.create fs).fs = made) ∨
        ∃ made, fs.makeDirectories plan.projectRoot = (.ok (), made) ∧
          (plan.create fs).result = .ok (.ofEvents (plan.runSets manifest made).1) ∧
          (plan.create fs).fs = (plan.runSets manifest made).2) := by
  unfold create Manifest.load
  cases Manifest.loadLines plan.filter plan.manifestPath fs with
  | error error => exact Or.inl ⟨error, rfl, rfl, rfl⟩
  | ok lines =>
    refine Or.inr ⟨.ofLines lines, rfl, ?_⟩
    rcases fs.makeDirectories plan.projectRoot with ⟨cause | _, made⟩
    · exact Or.inl ⟨cause, made, rfl, rfl, rfl⟩
    · exact Or.inr ⟨made, rfl, rfl, rfl⟩

/-- What a creation comes to that could read the manifest and make the project's directory. -/
theorem create_of_ok {manifest : Manifest}
    (hload : Manifest.load plan.filter plan.manifestPath fs = .ok manifest)
    (hmade : fs.makeDirectories plan.projectRoot = (.ok (), base)) :
    (plan.create fs).result = .ok (.ofEvents (plan.runSets manifest base).1) ∧
      (plan.create fs).fs = (plan.runSets manifest base).2 := by
  rcases create_cases plan fs with ⟨error, herror, -⟩ | ⟨other, hother, hmakes⟩
  · simp [hload] at herror
  obtain rfl := Except.ok.inj (hload.symm.trans hother)
  rcases hmakes with ⟨cause, made, herror, -⟩ | ⟨made, hok, hresult, hdone⟩
  · simp [hmade] at herror
  · obtain rfl := (Prod.mk.inj (hmade.symm.trans hok)).2
    exact ⟨hresult, hdone⟩

/-- What a creation comes to whose project's directory cannot be made. -/
theorem create_of_makeDirectories_error {manifest : Manifest} {cause : Cause}
    (hload : Manifest.load plan.filter plan.manifestPath fs = .ok manifest)
    (hmade : fs.makeDirectories plan.projectRoot = (.error cause, base)) :
    (plan.create fs).result = .error (.projectRoot plan.projectRoot cause) ∧
      (plan.create fs).fs = base := by
  rcases create_cases plan fs with ⟨error, herror, -⟩ | ⟨other, -, hmakes⟩
  · simp [hload] at herror
  rcases hmakes with ⟨other, made, herror, hresult, hdone⟩ | ⟨made, hok, -⟩
  · obtain ⟨hcause, rfl⟩ := Prod.mk.inj (hmade.symm.trans herror)
    obtain rfl := Except.error.inj hcause
    exact ⟨hresult, hdone⟩
  · simp [hmade] at hok

/-- A creation that succeeds could read the manifest and make the project's directory. -/
theorem exists_of_create {report : Report} (h : (plan.create fs).result = .ok report) :
    ∃ manifest base, Manifest.load plan.filter plan.manifestPath fs = .ok manifest ∧
      fs.makeDirectories plan.projectRoot = (.ok (), base) := by
  rcases create_cases plan fs with ⟨error, -, hresult, -⟩ | ⟨manifest, hload, hmakes⟩
  · simp [hresult] at h
  rcases hmakes with ⟨cause, made, -, hresult, -⟩ | ⟨made, hmade, -⟩
  · simp [hresult] at h
  · exact ⟨manifest, made, hload, hmade⟩

/-- What holds of everything that the runner does in one go holds of all the sets it runs. -/
theorem runSets_of_isInductive {filtered : String → Prop}
    {P : FileSystem → List Event → FileSystem → Prop} (h : plan.runner.IsInductive filtered P)
    {manifest : Manifest}
    (hmain : ∀ target, plan.runner.FilterTarget manifest.main target → filtered target)
    (hsection : ∀ set, manifest.section? plan.options.scene.sectionName = some set →
      ∀ target, plan.runner.FilterTarget set target → filtered target) (fs : FileSystem) :
    P fs (plan.runSets manifest fs).1 (plan.runSets manifest fs).2 := by
  refine h.seq (fun step hstep => ?_) fs
  rcases List.mem_cons.1 hstep with rfl | hstep
  · exact h.run hmain
  split at hstep
  · next set hset =>
    simp only [List.mem_cons, List.not_mem_nil, or_false] at hstep
    rcases hstep with rfl | rfl
    · exact fun fs => h.tell _ fs rfl
    · exact h.run (hsection set hset)
  · rw [List.mem_singleton.1 hstep]
    exact fun fs => h.tell _ fs rfl

/-- However a creation ends, it takes nothing away and leaves a well-formed file system. -/
theorem growsWell_create (plan : ProjectPlan) (fs : FileSystem) :
    GrowsWell fs (plan.create fs).fs := by
  have hmakes := GrowsWell.of_makeDirectories fs plan.projectRoot
  rcases create_cases plan fs with ⟨error, -, -, hdone⟩ | ⟨manifest, -, hmade⟩
  · rw [hdone]
    exact .refl fs
  rcases hmade with ⟨cause, made, hmade, -, hdone⟩ | ⟨made, hmade, -, hdone⟩
  · rw [hmade] at hmakes
    rwa [hdone]
  · rw [hmade] at hmakes
    rw [hdone]
    exact hmakes.trans (runSets_of_isInductive plan.runner.isInductive_growsWell
      (fun _ _ => trivial) (fun _ _ _ _ => trivial) made)

end ProjectPlan

end Scaffold
