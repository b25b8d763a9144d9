import Scaffold.Proofs.Manifest.Insertion
import Scaffold.Proofs.Project.Accounting
import Scaffold.Proofs.Run.Sparing

set_option autoImplicit false

/-! # The sections that matter

Of a manifest, a creation runs the main set and the set of the scene's section. Another section can be
written into the manifest's text wherever a section may begin, with any lines: the creation ends as
it did and leaves the same files (`create_inserts`), as long as it does not copy or filter the
manifest itself. -/

namespace Scaffold

open FileSystem

namespace ProjectPlan

variable {plan : ProjectPlan} {fs fs' base base' : FileSystem} {m m' : Manifest}
variable {place : List String}

/-- The items of the operations of a manifest with the file systems that they meet. -/
def meetings (plan : ProjectPlan) (manifest : Manifest) (fs : FileSystem) :
    List (Runner.Item × FileSystem) :=
  plan.runner.meetings
    (plan.runner.gather ((plan.operations manifest).map plan.runner.operationItems) fs) fs

/-- No item of the creation's operations reads the manifest. -/
def SparesManifest (plan : ProjectPlan) (fs : FileSystem) : Prop :=
  ∀ manifest base, Manifest.load plan.filter plan.manifestPath fs = .ok manifest →
    fs.makeDirectories plan.projectRoot = (.ok (), base) →
    ∀ meeting ∈ plan.meetings manifest base,
      plan.runner.readsAt (fs.spot plan.manifestPath) meeting = false

/-! ## The same sets -/

/-- What runs depends on the main set and on the set of the scene's section alone. -/
theorem runSets_congr (plan : ProjectPlan) (hmain : m'.main = m.main)
    (hsection : m'.section? plan.options.scene.sectionName =
      m.section? plan.options.scene.sectionName) :
    plan.runSets m' = plan.runSets m := by
  simp only [runSets, hmain, hsection]

theorem agreeStep_run (h : Agree (· = place) base base') {set : OperationSet}
    (hread : ∀ meeting ∈ plan.runner.meetings (plan.runner.items set base) base,
      plan.runner.readsAt place meeting = false) :
    Runner.AgreeStep (· = place) (plan.runner.run set base) (plan.runner.run set base') :=
  Runner.agreeStep_operations h hread

/-- The main set runs first, and then the set of the section meets what it has left. -/
theorem meetings_eq (manifest : Manifest) (fs : FileSystem) :
    plan.meetings manifest fs =
      plan.runner.meetings (plan.runner.items manifest.main fs) fs ++
        match manifest.section? plan.options.scene.sectionName with
        | some set =>
          plan.runner.meetings (plan.runner.items set (plan.runner.run manifest.main fs).2)
            (plan.runner.run manifest.main fs).2
        | none => [] := by
  unfold meetings operations
  rw [List.map_append, Runner.gather_append, Runner.meetings_append, Runner.run_eq_performAll]
  cases manifest.section? plan.options.scene.sectionName with
  | some set => rfl
  | none => rfl

theorem agreeStep_runSets (h : Agree (· = place) base base')
    (hread : ∀ meeting ∈ plan.meetings m base, plan.runner.readsAt place meeting = false) :
    Runner.AgreeStep (· = place) (plan.runSets m base) (plan.runSets m base') := by
  rw [meetings_eq] at hread
  have hmain := agreeStep_run h fun meeting hmeeting =>
    hread meeting (List.mem_append_left _ hmeeting)
  have hagree := hmain.agree
  unfold runSets
  refine hmain.cons ?_
  cases hset : m.section? plan.options.scene.sectionName with
  | none =>
    exact Runner.AgreeStep.cons (Runner.agreeStep_tell hagree _) (Runner.agreeStep_tell hagree [])
  | some set =>
    rw [hset] at hread
    have hsection := agreeStep_run hagree fun meeting hmeeting =>
      hread meeting (List.mem_append_right _ hmeeting)
    exact Runner.AgreeStep.cons (Runner.agreeStep_tell hagree _)
      (hsection.cons (Runner.agreeStep_tell hsection.agree []))

/-! ## Creations from both texts -/

/-- File systems that differ in the manifest alone agree when the project's directory is made, and
    where the manifests come down to the same sets, the creations come down to the same. -/
theorem create_of_sameBut {name : String} (hname : name ≠ plan.options.scene.sectionName)
    (hload : Manifest.load plan.filter plan.manifestPath fs = .ok m)
    (hload' : Manifest.load plan.filter plan.manifestPath fs' = .ok m')
    (hsets : Manifest.SameBut name m m')
    (hagree : Agree (· = fs.spot plan.manifestPath) fs fs') (hspares : plan.SparesManifest fs) :
    (plan.create fs').result = (plan.create fs).result ∧
      Agree (· = fs.spot plan.manifestPath) (plan.create fs).fs (plan.create fs').fs := by
  have hsame := runSets_congr plan hsets.main (hsets.others _ hname.symm)
  rcases (hagree.makeDirectories plan.projectRoot).cases with
    ⟨base, base', hmade, hmade', hbase⟩ | ⟨cause, made, made', hmade, hmade', hafter⟩
  · obtain ⟨hresult, hdone⟩ := create_of_ok hload hmade
    obtain ⟨hresult', hdone'⟩ := create_of_ok hload' hmade'
    have hruns := agreeStep_runSets hbase (hspares m base hload hmade)
    rw [hsame] at hresult' hdone'
    rw [hresult, hresult', hdone, hdone', hruns.events]
    exact ⟨rfl, hruns.agree⟩
  · obtain ⟨hresult, hdone⟩ := create_of_makeDirectories_error hload hmade
    obtain ⟨hresult', hdone'⟩ := create_of_makeDirectories_error hload' hmade'
    rw [hresult, hresult', hdone, hdone']
    exact ⟨rfl, hafter⟩

/-- A section that is neither the scene's nor the main set makes no difference, wherever its header
    and its lines are inserted into the text of the manifest: a creation that does not read the
    manifest but to begin with ends in the same way, and leaves the same but for the manifest. -/
theorem create_inserts (plan : ProjectPlan) {fs fs' : FileSystem} {name block text text' : String}
    (hname : name ≠ "") (hother : name ≠ plan.options.scene.sectionName)
    (hblock : ManifestLine.IsBlock plan.filter name block)
    (hinserts : ManifestLine.Inserts plan.filter block text text')
    (htext : fs.readText plan.manifestPath = .ok text)
    (htext' : fs'.readText plan.manifestPath = .ok text')
    (hagree : Agree (· = fs.spot plan.manifestPath) fs fs') (hspares : plan.SparesManifest fs) :
    (plan.create fs').result = (plan.create fs).result ∧
      Agree (· = fs.spot plan.manifestPath) (plan.create fs).fs (plan.create fs').fs := by
  have hsets := Manifest.sameBut_parse hname hblock hinserts
  exact create_of_sameBut hother (load_eq_ok_iff.2 ⟨text, htext, rfl⟩)
    (load_eq_ok_iff.2 ⟨text', htext', rfl⟩) hsets hagree hspares

/-! ## A section of another scene -/

/-- A manifest with a section for the scene of the plan. -/
def sceneText : String :=
  "C: a.txt\n[EmptyScene]\nF: a.txt : b.txt"

/-- A section of another scene, with a header that is none and an operation. -/
def otherBlock : String :=
  "[ UIBaseScene ]\n[\nC: a.txt : c.txt\n"

/-- The manifest with the other section in front of that of the scene. -/
def otherText : String :=
  "C: a.txt\n" ++ otherBlock ++ "[EmptyScene]\nF: a.txt : b.txt"

/-- A template with a section for the scene. -/
def sceneFiles : FileSystem :=
  (copyAndFilterFiles.write appPlan.manifestPath sceneText.toUTF8).2

/-- The same template with the other section. -/
def otherFiles : FileSystem :=
  (sceneFiles.write appPlan.manifestPath otherText.toUTF8).2

theorem otherBlock_isBlock : ManifestLine.IsBlock appPlan.filter "UIBaseScene" otherBlock := by
  have hlines : Text.lines otherBlock = ["[ UIBaseScene ]", "[", "C: a.txt : c.txt"] ∧
      ManifestLine.IsRead "[ UIBaseScene ]" ∧
      ManifestLine.ofText (appPlan.filter "[ UIBaseScene ]") = .header "UIBaseScene" ∧
      ManifestLine.ofText (appPlan.filter "[") = .badHeader "[" ∧
      ManifestLine.ofText (appPlan.filter "C: a.txt : c.txt") =
        .operation ⟨.copyFile, ⟨⟨["a.txt"]⟩, ⟨["c.txt"]⟩⟩⟩ := by
    decide +kernel
  obtain ⟨hlines, hread, hheader, hbad, hop⟩ := hlines
  refine ⟨_, _, hlines, ⟨hread, hheader⟩, fun line hline other hother => ?_⟩
  have hmeaning := hother.header
  simp only [List.mem_cons, List.not_mem_nil, or_false] at hline
  rcases hline with rfl | rfl
  · simp [hbad] at hmeaning
  · simp [hop] at hmeaning

theorem otherText_inserts : ManifestLine.Inserts appPlan.filter otherBlock sceneText otherText := by
  have hgiven : "C: a.txt\n".toList.getLast? = some '\n' ∧ otherBlock.toList.getLast? = some '\n' ∧
      (Text.lines "[EmptyScene]\nF: a.txt : b.txt").head? = some "[EmptyScene]" ∧
      ManifestLine.IsRead "[EmptyScene]" ∧
      ManifestLine.ofText (appPlan.filter "[EmptyScene]") = .header "EmptyScene" := by
    decide +kernel
  obtain ⟨hstart, hends, hrest, hread, hheader⟩ := hgiven
  exact .before "C: a.txt\n" "[EmptyScene]\nF: a.txt : b.txt" (Or.inr hstart) hends hrest
    ⟨hread, hheader⟩

/-- What there is to begin with, what is met on the way, and what the creation comes to. -/
theorem sceneFiles_given :
    sceneFiles.readText appPlan.manifestPath = .ok sceneText ∧
      sceneFiles.read appPlan.manifestPath = .ok sceneText.toUTF8 ∧
      (appPlan.meetings (Manifest.parse appPlan.filter sceneText)
        (sceneFiles.makeDirectories appPlan.projectRoot).2).all (fun meeting =>
          !appPlan.runner.readsAt (sceneFiles.spot appPlan.manifestPath) meeting) = true ∧
      (appPlan.create sceneFiles).result = .ok ⟨2, []⟩ := by
  decide +kernel

theorem sceneFiles_sparesManifest : appPlan.SparesManifest sceneFiles := by
  intro manifest base hload hmade meeting hmeeting
  obtain ⟨text, htext, rfl⟩ := load_eq_ok_iff.1 hload
  obtain ⟨hread, -, hspares, -⟩ := sceneFiles_given
  rw [hread] at htext
  cases htext
  rw [hmade] at hspares
  simpa using List.all_eq_true.1 hspares meeting hmeeting

/-- The operations of both sets run, and that of the other section does not. -/
theorem create_inserts_otherScene :
    "UIBaseScene" ≠ "" ∧ "UIBaseScene" ≠ appPlan.options.scene.sectionName ∧
      ManifestLine.IsBlock appPlan.filter "UIBaseScene" otherBlock ∧
      ManifestLine.Inserts appPlan.filter otherBlock sceneText otherText ∧
      sceneFiles.readText appPlan.manifestPath = .ok sceneText ∧
      otherFiles.readText appPlan.manifestPath = .ok otherText ∧
      Agree (· = sceneFiles.spot appPlan.manifestPath) sceneFiles otherFiles ∧
      appPlan.SparesManifest sceneFiles ∧
      (appPlan.create otherFiles).result = .ok ⟨2, []⟩ ∧
      Agree (· = sceneFiles.spot appPlan.manifestPath) (appPlan.create sceneFiles).fs
        (appPlan.create otherFiles).fs := by
  obtain ⟨htext, hread, -, hcreate⟩ := sceneFiles_given
  obtain ⟨hagree, hother⟩ := Agree.write_self hread otherText.toUTF8
  have htext' := readText_eq_ok_iff.2 hother
  have hname : "UIBaseScene" ≠ "" ∧ "UIBaseScene" ≠ appPlan.options.scene.sectionName := by
    decide
  obtain ⟨hresult, hafter⟩ := create_inserts appPlan hname.1 hname.2 otherBlock_isBlock
    otherText_inserts htext htext' hagree sceneFiles_sparesManifest
  exact ⟨hname.1, hname.2, otherBlock_isBlock, otherText_inserts, htext, htext', hagree,
    sceneFiles_sparesManifest, hresult.trans hcreate, hafter⟩

end ProjectPlan

end Scaffold
