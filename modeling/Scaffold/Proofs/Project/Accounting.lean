import Scaffold.Proofs.FileSystem.Holding
import Scaffold.Proofs.Project.Twice
import Scaffold.Proofs.Run.Accounting

set_option autoImplicit false

/-! # The report of a creation

A creation fails in two ways only, and which of them it is can be told beforehand: the manifest
cannot be read as text, or it can and the project's directory cannot be made. Otherwise it comes to a
report. The report lists the errors of items alone, and it tells of each item of the operations
exactly once: they are those of the main set and of the scene's section. -/

namespace Scaffold

open FileSystem

namespace ProjectPlan

variable {plan : ProjectPlan} {fs base : FileSystem}

/-- The manifest can be read as text. -/
def CanRead (plan : ProjectPlan) (fs : FileSystem) : Prop :=
  ∃ text : String, fs.read plan.manifestPath = .ok text.toUTF8

/-- The project's directory can be made. -/
def CanBegin (plan : ProjectPlan) (fs : FileSystem) : Prop :=
  plan.projectRoot = "" ∨ fs.CanMake plan.projectRoot

/-- The operations of the main set and of the section that belongs to the scene. -/
def operations (plan : ProjectPlan) (manifest : Manifest) : List Operation :=
  manifest.main.operations ++
    match manifest.section? plan.options.scene.sectionName with
    | some set => set.operations
    | none => []

/-! ## How it ends -/

theorem exists_load_iff :
    (∃ manifest, Manifest.load plan.filter plan.manifestPath fs = .ok manifest) ↔
      plan.CanRead fs := by
  constructor
  · rintro ⟨manifest, hload⟩
    obtain ⟨text, htext, -⟩ := load_eq_ok_iff.1 hload
    exact ⟨text, readText_eq_ok_iff.1 htext⟩
  · rintro ⟨text, htext⟩
    exact ⟨_, load_eq_ok_iff.2 ⟨text, readText_eq_ok_iff.2 htext, rfl⟩⟩

theorem load_eq_error {error : Error}
    (h : Manifest.load plan.filter plan.manifestPath fs = .error error) :
    ∃ cause, error = .manifest plan.manifestPath cause := by
  unfold Manifest.load Manifest.loadLines at h
  cases htext : fs.readText plan.manifestPath with
  | error cause =>
    rw [htext] at h
    exact ⟨cause, (Except.error.inj h).symm⟩
  | ok text => simp [htext, Except.map] at h

theorem exists_makeDirectories_projectRoot_iff (hfs : fs.WellFormed) :
    (∃ made, fs.makeDirectories plan.projectRoot = (.ok (), made)) ↔ plan.CanBegin fs := by
  have hstart := hfs.lookup_start plan.projectRoot
  constructor
  · rintro ⟨made, hmade⟩
    refine or_iff_not_imp_left.2 fun hne => ?_
    exact (exists_makeDirectories_iff hne hstart).1 ⟨made, hmade⟩
  · intro hbegin
    obtain ⟨made, hmade, -⟩ := exists_makeDirectories hstart hbegin
    exact ⟨made, hmade⟩

/-- The three ways in which a creation ends, and what each of them depends on. -/
theorem create_ends (plan : ProjectPlan) (hfs : fs.WellFormed) :
    (¬ plan.CanRead fs ∧
      ∃ cause, (plan.create fs).result = .error (.manifest plan.manifestPath cause)) ∨
    (plan.CanRead fs ∧ ¬ plan.CanBegin fs ∧
      ∃ cause, (plan.create fs).result = .error (.projectRoot plan.projectRoot cause)) ∨
    (plan.CanRead fs ∧ plan.CanBegin fs ∧ ∃ report, (plan.create fs).result = .ok report) := by
  rw [← exists_load_iff, ← exists_makeDirectories_projectRoot_iff hfs]
  rcases create_cases plan fs with ⟨error, hload, hresult, -⟩ | ⟨manifest, hload, hmakes⟩
  · obtain ⟨cause, rfl⟩ := load_eq_error hload
    refine Or.inl ⟨?_, cause, hresult⟩
    rintro ⟨manifest, hok⟩
    simp [hload] at hok
  rcases hmakes with ⟨cause, made, hmade, hresult, -⟩ | ⟨made, hmade, hresult, -⟩
  · refine Or.inr (Or.inl ⟨⟨manifest, hload⟩, ?_, cause, hresult⟩)
    rintro ⟨made', hok⟩
    simp [hmade] at hok
  · exact Or.inr (Or.inr ⟨⟨manifest, hload⟩, ⟨made, hmade⟩, _, hresult⟩)

/-! ## What it reports -/

theorem all_isItemError_runSets (plan : ProjectPlan) (manifest : Manifest) (hfs : fs.WellFormed) :
    (Report.ofEvents (plan.runSets manifest fs).1).skipped.all Error.isItemError = true := by
  have hrun : ∀ set fs, (fs : FileSystem).WellFormed → ((plan.runner.run set fs).2).WellFormed ∧
      (Report.ofEvents (plan.runner.run set fs).1).skipped.all Error.isItemError = true :=
    fun set fs hfs => ⟨(Runner.growsWell_run plan.runner set fs).wellFormed hfs,
      Runner.all_isItemError_run plan.runner set hfs⟩
  obtain ⟨hmade, hmain⟩ := hrun manifest.main fs hfs
  unfold runSets
  rw [Step.seq]
  refine Runner.all_isItemError_append hmain ?_
  cases manifest.section? plan.options.scene.sectionName with
  | none => rfl
  | some set =>
    simp only [Step.seq, List.append_nil]
    exact Runner.all_isItemError_append rfl (hrun set _ hmade).2

/-- The runs of a creation account for the shares of the operations. -/
theorem accounts_runSets {origin : String} {here top : List String}
    (hstage : plan.runner.Stage base origin here top) {manifest : Manifest}
    (hnamed : ∀ op, manifest.Mentions op → op.IsNamed) :
    AccountsFor base top (plan.runSets manifest) fun done =>
      ((plan.operations manifest).map (plan.runner.share base done)).sum := by
  have hmain : AccountsFor base top (plan.runner.run manifest.main) fun done =>
      (manifest.main.operations.map (plan.runner.share base done)).sum :=
    Runner.accounts_run hstage fun op hop => hnamed op (Or.inl hop)
  unfold runSets operations
  dsimp only
  cases hset : manifest.section? plan.options.scene.sectionName with
  | none =>
    refine (accounts_pair hmain (accounts_tell _)).of_eq fun done => ?_
    rw [List.append_nil]
    rfl
  | some set =>
    have hsection : AccountsFor base top (plan.runner.run set) fun done =>
        (set.operations.map (plan.runner.share base done)).sum :=
      Runner.accounts_run hstage fun op hop => hnamed op (Or.inr ⟨_, set, hset, hop⟩)
    refine (hmain.cons (accounts_pair (accounts_tell _) hsection)).of_eq fun done => ?_
    rw [List.map_append, List.sum_append]
    exact congrArg _ (Nat.zero_add _).symm

theorem isItemError_of_create (hfs : fs.WellFormed) {report : Report}
    (hcreate : (plan.create fs).result = .ok report) :
    ∀ error ∈ report.skipped, error.isItemError = true := by
  obtain ⟨manifest, base, hload, hmade⟩ := exists_of_create hcreate
  have hbase := wellFormed_makeDirectories hfs plan.projectRoot
  rw [hmade] at hbase
  obtain rfl := Except.ok.inj (hcreate.symm.trans (create_of_ok hload hmade).1)
  exact List.all_eq_true.1 (all_isItemError_runSets plan manifest hbase)

/-- If the roots lie apart and the manifest's paths go nowhere but down, the report tells of every
    item of the operations once. -/
theorem total_of_create (hfs : fs.WellFormed) (hapart : plan.RootsApart fs)
    (hplain : plan.PathsPlain fs) {manifest : Manifest}
    (hload : Manifest.load plan.filter plan.manifestPath fs = .ok manifest) {report : Report}
    (hcreate : (plan.create fs).result = .ok report) :
    report.total = ((plan.operations manifest).map
      (plan.runner.share (fs.makeDirectories plan.projectRoot).2 (plan.create fs).fs)).sum := by
  obtain ⟨other, base, hother, hmade⟩ := exists_of_create hcreate
  obtain rfl := Except.ok.inj (hload.symm.trans hother)
  obtain ⟨text, htext, -⟩ := load_eq_ok_iff.1 hload
  obtain ⟨bytes, hread⟩ := exists_read_of_readText htext
  obtain ⟨here, top, hstage⟩ := exists_stage hfs hapart hread hmade
  have hnamed : ∀ op, manifest.Mentions op → op.IsNamed := fun _ hop => hplain.isNamed hload hop
  obtain ⟨hresult, hdone⟩ := create_of_ok hload hmade
  obtain rfl := Except.ok.inj (hcreate.symm.trans hresult)
  rw [hdone, hmade]
  exact (accounts_runSets hstage hnamed base (.refl top base)).2 _ (.refl top _)

/-- A creation ends by the error of the manifest if this cannot be read, by that of the project's
    directory if it cannot be made although the manifest can be read, and otherwise with a report.
    The report lists errors of items alone. If the roots lie apart and the manifest's paths go nowhere
    but down, each item is written or listed once. -/
theorem create_accounts (plan : ProjectPlan) (fs : FileSystem) (hfs : fs.WellFormed) :
    ((∃ cause, (plan.create fs).result = .error (.manifest plan.manifestPath cause)) ↔
      ¬ plan.CanRead fs) ∧
    ((∃ cause, (plan.create fs).result = .error (.projectRoot plan.projectRoot cause)) ↔
      plan.CanRead fs ∧ ¬ plan.CanBegin fs) ∧
    ((∃ report, (plan.create fs).result = .ok report) ↔ plan.CanRead fs ∧ plan.CanBegin fs) ∧
    ∀ report, (plan.create fs).result = .ok report →
      (∀ error ∈ report.skipped, error.isItemError = true) ∧
      (plan.RootsApart fs → plan.PathsPlain fs → ∀ manifest,
        Manifest.load plan.filter plan.manifestPath fs = .ok manifest →
        report.written + report.skipped.length = ((plan.operations manifest).map
          (plan.runner.share (fs.makeDirectories plan.projectRoot).2 (plan.create fs).fs)).sum) := by
  rw [← and_assoc, ← and_assoc]
  refine ⟨?_, fun report hcreate => ⟨isItemError_of_create hfs hcreate,
    fun hapart hplain manifest hload => total_of_create hfs hapart hplain hload hcreate⟩⟩
  rcases create_ends plan hfs with ⟨hread, cause, hresult⟩ |
    ⟨hread, hbegin, cause, hresult⟩ | ⟨hread, hbegin, report, hresult⟩
  · simp [hread, hresult]
  · simp [hread, hbegin, hresult]
  · simp [hread, hbegin, hresult]

/-! ## Something in the way -/

/-- Copies a directory. -/
def subCopy : Operation :=
  ⟨.copySubtree, ⟨⟨["sub"]⟩, ⟨["sub"]⟩⟩⟩

theorem parse_subCopy :
    ManifestLine.readAll appPlan.filter "C: sub/*" = [.operation subCopy] ∧
      appPlan.operations (Manifest.parse appPlan.filter "C: sub/*") = [subCopy] := by
  decide +kernel

theorem isPlain_subCopy (op : Operation)
    (h : .operation op ∈ ManifestLine.readAll appPlan.filter "C: sub/*") : op.IsPlain := by
  rw [parse_subCopy.1, List.mem_singleton, ManifestLine.operation.injEq] at h
  rw [h]
  unfold Operation.IsPlain IsStep
  decide

/-- A template with a directory of one file. In the project's directory a file has its name. -/
def blockedFiles : FileSystem :=
  let fs := ((FileSystem.mk [] []).makeDirectories "/tpl/Project/sub").2
  let fs := (fs.write "/tpl/Template.txt" "C: sub/*".toUTF8).2
  let fs := (fs.write "/tpl/Project/sub/a.txt" "text".toUTF8).2
  let fs := (fs.makeDirectories "/eng/App").2
  (fs.write "/eng/App/sub" "in the way".toUTF8).2

theorem blockedFiles_wellFormed : blockedFiles.WellFormed := by
  unfold blockedFiles
  have htemplate := wellFormed_makeDirectories wellFormed_empty "/tpl/Project/sub"
  exact wellFormed_write
    (wellFormed_makeDirectories (wellFormed_write (wellFormed_write htemplate _ _) _ _) _) _ _

/-- What there is to begin with, and how many items are written and passed over. -/
theorem blockedFiles_given :
    LieApart (blockedFiles.spot appPlan.projectRoot)
        (blockedFiles.spot appPlan.roots.templateRoot) ∧
      blockedFiles.readText appPlan.manifestPath = .ok "C: sub/*" ∧
      ((appPlan.create blockedFiles).result.map fun report =>
        (report.written, report.skipped.length)) = .ok (0, 2) := by
  decide +kernel

/-- The copy of the directory cannot be made, and then the file cannot be copied into it. -/
theorem create_accounts_blocked :
    blockedFiles.WellFormed ∧ appPlan.CanRead blockedFiles ∧ appPlan.CanBegin blockedFiles ∧
      appPlan.RootsApart blockedFiles ∧ appPlan.PathsPlain blockedFiles ∧
      ∃ report manifest, (appPlan.create blockedFiles).result = .ok report ∧
        Manifest.load appPlan.filter appPlan.manifestPath blockedFiles = .ok manifest ∧
        report.written = 0 ∧ report.skipped.length = 2 ∧
        (∀ error ∈ report.skipped, error.isItemError = true) ∧
        ((appPlan.operations manifest).map (appPlan.runner.share
          (blockedFiles.makeDirectories appPlan.projectRoot).2
          (appPlan.create blockedFiles).fs)).sum = 2 := by
  obtain ⟨hspots, htext, hcounts⟩ := blockedFiles_given
  have hapart := rootsApart_of_spots hspots
  have hplain := pathsPlain_of_readText htext isPlain_subCopy
  obtain ⟨-, -, hends, hreport⟩ := create_accounts appPlan blockedFiles blockedFiles_wellFormed
  cases hresult : (appPlan.create blockedFiles).result with
  | error error => simp [hresult, Except.map] at hcounts
  | ok report =>
    rw [hresult] at hcounts
    obtain ⟨hwritten, hskipped⟩ := Prod.mk.inj (Except.ok.inj hcounts)
    obtain ⟨hread, hbegin⟩ := hends.1 ⟨_, hresult⟩
    obtain ⟨hitems, htotal⟩ := hreport _ hresult
    obtain ⟨manifest, hload⟩ := exists_load_iff.2 hread
    refine ⟨blockedFiles_wellFormed, hread, hbegin, hapart, hplain, report, manifest, rfl, hload,
      hwritten, hskipped, hitems, ?_⟩
    rw [← htotal hapart hplain manifest hload, hwritten, hskipped]

/-! ## Out of reach -/

/-- All files below the source of an operation that copies a directory, and all directories whose
    copy is none in the end. -/
noncomputable def wholeShare (r : Runner) (base done : FileSystem) (op : Operation) : Nat :=
  match op.kind with
  | .copySubtree =>
    if base.isDirectory (r.sourceOf op) then
      {names | base.kind? (base.spot (r.sourceOf op) ++ names) = some .file}.ncard +
      {names | base.kind? (base.spot (r.sourceOf op) ++ names) = some .directory ∧
        done.isDirectory (along (Path.join (r.targetOf op) "") names) = false}.ncard
    else 1
  | .copyFile | .filterFile => 1

theorem share_of_visitsAll (r : Runner) (done : FileSystem) {op : Operation}
    (hkind : op.kind = .copySubtree) (hdirectory : base.isDirectory (r.sourceOf op) = true)
    (hall : base.VisitsAll (r.sourceOf op)) :
    r.share base done op = wholeShare r base done op +
      base.directoriesBelow (r.sourceOf op) fun names =>
        !base.isDirectory (along (r.sourceOf op) names) := by
  unfold Runner.share wholeShare
  rw [hkind]
  dsimp only
  rw [if_pos hdirectory, if_pos hdirectory, Runner.subtreeShare_of_visitsAll hall]

/-- A template with a directory in which there is nothing but an empty one. -/
def innerFiles : FileSystem :=
  let fs := ((FileSystem.mk [] []).makeDirectories "tpl/Project/sub/inner").2
  (fs.write "tpl/Template.txt" "C: sub/*".toUTF8).2

/-- The template once the project's directory is made. -/
def innerBase : FileSystem :=
  (innerFiles.makeDirectories "eng/App").2

/-- Creates a project from a template root with that many slashes behind it. -/
def farPlan (n : Nat) : ProjectPlan :=
  { appPlan with roots := ⟨"eng", slashed "tpl" n⟩ }

/-- Where the directory is taken from. -/
def farSource (n : Nat) : String :=
  (farPlan n).runner.sourceOf subCopy

theorem innerFiles_wellFormed : innerFiles.WellFormed := by
  unfold innerFiles
  exact wellFormed_write (wellFormed_makeDirectories wellFormed_empty "tpl/Project/sub/inner") _ _

theorem innerBase_wellFormed : innerBase.WellFormed :=
  wellFormed_makeDirectories innerFiles_wellFormed _

/-- What there is to begin with, told by short path texts. -/
theorem innerFiles_given :
    LieApart (innerFiles.spot "eng/App") (innerFiles.spot "tpl") ∧
      innerFiles.readText (farPlan 0).manifestPath = .ok "C: sub/*" ∧
      (innerFiles.makeDirectories "eng/App").1 = .ok () ∧
      innerBase.list (farSource 0) = .ok [("inner", true)] ∧
      innerBase.list (Path.join (farSource 0) "inner") = .ok [] := by
  decide +kernel

theorem farPlan_filter (n : Nat) : (farPlan n).filter = appPlan.filter := rfl

theorem farPlan_operations (n : Nat) (manifest : Manifest) :
    (farPlan n).operations manifest = appPlan.operations manifest := rfl

theorem farPlan_manifestPath (n : Nat) :
    (farPlan n).manifestPath = Path.join (slashed "tpl" n) "Template.txt" := rfl

theorem farSource_eq (n : Nat) :
    farSource n = Path.join (Path.join (slashed "tpl" n) "Project") "sub" := rfl

theorem farPlan_projectRoot (n : Nat) : (farPlan n).projectRoot = "eng/App" := by
  change Path.join "eng" "App" = "eng/App"
  decide

theorem extends_slashed_tpl (n : Nat) : Extends "tpl" (slashed "tpl" n) [] :=
  extends_slashed (by decide) n

theorem extendsToName_farSource (n : Nat) :
    ExtendsToName "tpl" (farSource n) ["Project", "sub"] := by
  have hproject : IsName "Project" := by decide
  exact ((extends_slashed_tpl n).join hproject).join_name (by decide)

theorem farPlan_rootsApart (n : Nat) : (farPlan n).RootsApart innerFiles := by
  have hspot : innerFiles.spot (farPlan n).roots.templateRoot = innerFiles.spot "tpl" :=
    ((extends_slashed_tpl n).spot_eq innerFiles).trans (List.append_nil _)
  refine rootsApart_of_spots ?_
  rw [farPlan_projectRoot, hspot]
  exact innerFiles_given.1

theorem farPlan_makeDirectories (n : Nat) :
    innerFiles.makeDirectories (farPlan n).projectRoot = (.ok (), innerBase) := by
  have hpair : ∀ change : Change, change.1 = .ok () → change = (.ok (), change.2) :=
    fun change h => Prod.ext h rfl
  obtain ⟨-, -, hmade, -⟩ := innerFiles_given
  rw [farPlan_projectRoot]
  exact hpair _ hmade

theorem utf8ByteSize_slashed_tpl (n : Nat) : (slashed "tpl" n).utf8ByteSize = 3 + n := by
  rw [utf8ByteSize_slashed]
  rfl

section

variable {n : Nat}

theorem accepts_slashed_tpl (hn : n ≤ 4079) : Accepts (slashed "tpl" n) := by
  have htpl : Accepts "tpl" := by
    unfold Accepts
    decide
  have hsize : "tpl".utf8ByteSize = 3 := by decide
  refine accepts_slashed htpl ?_
  unfold pathLimit
  omega

theorem accepts_manifestPath (hn : n ≤ 4079) : Accepts (farPlan n).manifestPath := by
  have hsize : "Template.txt".utf8ByteSize = 12 := by decide
  rw [farPlan_manifestPath]
  refine accepts_join (accepts_slashed_tpl hn) (by decide) (by decide) ?_
  rw [utf8ByteSize_slashed_tpl]
  unfold pathLimit
  omega

theorem accepts_farSource (hn : n ≤ 4079) : Accepts (farSource n) := by
  have hproject : (Path.join (slashed "tpl" n) "Project").utf8ByteSize ≤
      (slashed "tpl" n).utf8ByteSize + "Project".utf8ByteSize + 1 :=
    utf8ByteSize_join_le _ (by decide)
  have hsize : "Project".utf8ByteSize = 7 ∧ "sub".utf8ByteSize = 3 := by decide
  rw [utf8ByteSize_slashed_tpl] at hproject
  rw [farSource_eq]
  refine accepts_join (accepts_join (accepts_slashed_tpl hn) (by decide) (by decide) ?_)
    (by decide) (by decide) ?_
  · rw [utf8ByteSize_slashed_tpl]
    unfold pathLimit
    omega
  · unfold pathLimit
    omega

/-- The inner directory is out of reach. -/
theorem not_accepts_inner (hn : 4079 ≤ n) : ¬ Accepts (Path.join (farSource n) "inner") := by
  intro haccepts
  have hproject : (slashed "tpl" n).utf8ByteSize + "Project".utf8ByteSize ≤
      (Path.join (slashed "tpl" n) "Project").utf8ByteSize := le_utf8ByteSize_join _ (by decide)
  have hsub : (Path.join (slashed "tpl" n) "Project").utf8ByteSize + "sub".utf8ByteSize ≤
      (farSource n).utf8ByteSize := le_utf8ByteSize_join _ (by decide)
  have hinner : (farSource n).utf8ByteSize + "inner".utf8ByteSize ≤
      (Path.join (farSource n) "inner").utf8ByteSize := le_utf8ByteSize_join _ (by decide)
  have hsize : "Project".utf8ByteSize = 7 ∧ "sub".utf8ByteSize = 3 ∧ "inner".utf8ByteSize = 5 := by
    decide
  have hshort := haccepts.2.2
  rw [utf8ByteSize_slashed_tpl] at hproject
  unfold pathLimit at hshort
  omega

theorem farPlan_readText (hn : n ≤ 4079) :
    innerFiles.readText (farPlan n).manifestPath = .ok "C: sub/*" := by
  have hname : ∀ n, ExtendsToName "tpl" (farPlan n).manifestPath ["Template.txt"] := fun n =>
    (extends_slashed_tpl n).join_name (by decide)
  have hresolve := (hname n).resolve_congr (hname 0) (accepts_manifestPath hn)
    (accepts_manifestPath (Nat.zero_le _)) innerFiles
  exact (readText_congr_path hresolve).trans innerFiles_given.2.1

theorem farPlan_load (hn : n ≤ 4079) :
    Manifest.load (farPlan n).filter (farPlan n).manifestPath innerFiles =
      .ok (Manifest.parse appPlan.filter "C: sub/*") := by
  rw [farPlan_filter]
  exact load_eq_ok_iff.2 ⟨_, farPlan_readText hn, rfl⟩

theorem farPlan_pathsPlain (hn : n ≤ 4079) : (farPlan n).PathsPlain innerFiles := by
  refine pathsPlain_of_readText (farPlan_readText hn) ?_
  rw [farPlan_filter]
  exact isPlain_subCopy

theorem list_farSource (hn : n ≤ 4079) : innerBase.list (farSource n) = .ok [("inner", true)] := by
  have hresolve := (extendsToName_farSource n).resolve_congr (extendsToName_farSource 0)
    (accepts_farSource hn) (accepts_farSource (Nat.zero_le _)) innerBase
  obtain ⟨-, -, -, hlist, -⟩ := innerFiles_given
  exact (list_congr_path hresolve).trans hlist

theorem visitsAll_farSource (hn : n ≤ 4079) : innerBase.VisitsAll (farSource n) := by
  have hinner : IsName "inner" := by decide
  have hspot : innerBase.spot (Path.join (farSource 0) "inner") =
      innerBase.spot (Path.join (farSource n) "inner") := by
    rw [spot_join innerBase _ hinner, spot_join innerBase _ hinner,
      (extendsToName_farSource 0).spot_eq, (extendsToName_farSource n).spot_eq]
  obtain ⟨-, -, -, -, hempty⟩ := innerFiles_given
  refine visitsAll_of_list innerBase_wellFormed (list_farSource hn) fun entry hentry => ?_
  rw [List.mem_singleton.1 hentry]
  exact visitsAll_of_empty hspot hempty

/-- The inner directory is the only one that cannot be listed. -/
theorem directoriesBelow_farSource (hn : n = 4079) :
    (innerBase.directoriesBelow (farSource n) fun names =>
      !innerBase.isDirectory (along (farSource n) names)) = 1 := by
  have hlist := list_farSource hn.le
  have hdirectory := isDirectory_iff_exists_list.2 ⟨_, hlist⟩
  have hleaf := isDirectory_of_not_accepts innerBase (not_accepts_inner hn.ge)
  have hkind := kind?_of_mem_entries innerBase_wellFormed hlist List.mem_cons_self
  rw [directoriesBelow_of_list innerBase_wellFormed hlist, List.map_singleton, List.sum_singleton,
    directoriesBelow_of_leaf hkind hleaf]
  simp [along, hdirectory, hleaf]

end

/-- A directory that is out of reach is listed among the errors although its copy could be made. -/
theorem exists_create_accounts_more : ¬ ∀ (plan : ProjectPlan) (fs : FileSystem) (report : Report)
    (manifest : Manifest), fs.WellFormed → plan.RootsApart fs → plan.PathsPlain fs →
      Manifest.load plan.filter plan.manifestPath fs = .ok manifest →
      (plan.create fs).result = .ok report →
      report.written + report.skipped.length = ((plan.operations manifest).map
        (wholeShare plan.runner (fs.makeDirectories plan.projectRoot).2
          (plan.create fs).fs)).sum := by
  intro hall
  -- the number stays a variable here, so that the path texts are never written out
  obtain ⟨n, hn⟩ : ∃ n, n = 4079 := ⟨4079, rfl⟩
  have hload := farPlan_load hn.le
  have hmade := farPlan_makeDirectories n
  have hplain := farPlan_pathsPlain hn.le
  have hapart := farPlan_rootsApart n
  have hresult := (create_of_ok hload hmade).1
  have htotal := total_of_create innerFiles_wellFormed hapart hplain hload hresult
  have hclaimed := hall (farPlan n) innerFiles _ _ innerFiles_wellFormed hapart hplain hload
    hresult
  rw [farPlan_operations, parse_subCopy.2, List.map_singleton, List.sum_singleton, hmade]
    at htotal hclaimed
  have hkind : subCopy.kind = .copySubtree := rfl
  have hdirectory := isDirectory_iff_exists_list.2 ⟨_, list_farSource hn.le⟩
  have hshare := share_of_visitsAll (farPlan n).runner ((farPlan n).create innerFiles).fs hkind
    hdirectory (visitsAll_farSource hn.le)
  have hone := directoriesBelow_farSource hn
  unfold farSource at hone
  rw [hone] at hshare
  unfold Report.total at htotal
  dsimp only at htotal hclaimed
  omega

end ProjectPlan

end Scaffold
