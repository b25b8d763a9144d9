import Scaffold.Proofs.FileSystem.Lengths
import Scaffold.Proofs.Run.Lockstep
import Scaffold.Proofs.Run.Naming

set_option autoImplicit false

/-! # What leave to overwrite changes

A run that may overwrite and one that may not work off the same items, one as long as the other, and
the file systems that they lead to agree all the way: the files that may differ are those that the
run without leave has refused to replace. So both runs leave the same directories and files, and
what the one writes more than the other are the refused copies whose target was a file and whose
source can be read (`run_overwrite`). -/

namespace Scaffold

open FileSystem

namespace Runner

variable {r : Runner} {differing : List String → Prop} {s t : FileSystem} {source target : String}

/-- The runner without leave to overwrite. -/
def keeping (r : Runner) : Runner :=
  { r with overwrite := false }

/-- The runner with leave to overwrite. -/
def replacing (r : Runner) : Runner :=
  { r with overwrite := true }

/-! ## A copy to a target that is there -/

/-- With leave to overwrite, the copy replaces a file if its source can be read, and fails if not or
    if the target is a directory. -/
theorem replacing_copyBytes_cases {names : List String} (hfs : s.WellFormed)
    (htarget : ExtendsToName r.outputRoot target names) (hthere : s.isThere target = true)
    (source : String) :
    ((s.isFile target && s.isFile source) = false ∧
      ∃ error, r.replacing.copyBytes source target s = ([.skipped error], s)) ∨
    (s.isFile target && s.isFile source) = true ∧
      ∃ place old bytes done, s.resolve target = .ok (.found place) ∧
        s.lookup place = some (.file old) ∧ Writes place bytes s done ∧
        r.replacing.copyBytes source target s = ([.copied target], done) := by
  have hparent := makeParent_of_isThere htarget (hfs.lookup_start target) hthere
  have hoverwrite : (!r.replacing.overwrite && s.isThere target) = false := rfl
  have hfails : ∀ cause, s.copy source target = (.error cause, s) →
      ∃ error, r.replacing.copyBytes source target s = ([.skipped error], s) := fun cause hcopy =>
    ⟨_, copyBytes_of_copy_error hoverwrite hparent hcopy⟩
  cases hread : s.read source with
  | error cause =>
    have hsource : s.isFile source = false := by
      rw [← Bool.not_eq_true, isFile_iff]
      simp [hread]
    rw [hsource, Bool.and_false]
    exact Or.inl ⟨rfl, hfails cause (copy_of_read_error hread target)⟩
  | ok content =>
    rw [isFile_iff.2 ⟨content, hread⟩, Bool.and_true]
    obtain ⟨place, hresolve, hentry⟩ := isThere_iff.1 hthere
    obtain ⟨e, hentry⟩ := Option.ne_none_iff_exists'.1 hentry
    cases e with
    | directory =>
      have htarget : s.isFile target = false := by
        rw [← Bool.not_eq_true, isFile_iff]
        simp [read_eq_ok_iff, hresolve, hentry]
      have hwrite := write_of_directory hresolve hentry .empty
      exact Or.inl ⟨htarget, hfails _ (copy_of_write_error hread hwrite)⟩
    | file old =>
      obtain ⟨bytes, done, -, hcopy, hwrites⟩ :=
        copy_of_opens hread (.file hresolve hentry) (write_of_file hresolve hentry .empty)
      have htarget := isFile_iff.2 ⟨old, read_eq_ok_iff.2 ⟨place, hresolve, hentry⟩⟩
      exact Or.inr ⟨htarget, place, old, bytes, done, hresolve, hentry, hwrites,
        copyBytes_of_ok hoverwrite hparent hcopy⟩

/-! ## Refused copies -/

/-- Whether a copy is refused since there is a file at its target. -/
def refusesFile (r : Runner) : Item × FileSystem → Bool
  | (.copy source target, fs) =>
    (r.perform (.copy source target) fs).1 == [.skipped (.targetExists target)] &&
      fs.isFile target
  | _ => false

/-- Whether the source of a copy is there to be read. -/
def canRead : Item × FileSystem → Bool
  | (.copy source _, fs) => fs.isFile source
  | _ => false

/-- The places of what was refused below the output root. -/
def RefusedAt (r : Runner) (events : List Event) (fs : FileSystem) (place : List String) : Prop :=
  ∃ target, r.naming.file target ∧ .skipped (.targetExists target) ∈ events ∧
    fs.resolve target = .ok (.found place)

theorem isThere_of_isFile (h : s.isFile target = true) : s.isThere target = true := by
  obtain ⟨bytes, hread⟩ := isFile_iff.1 h
  obtain ⟨place, hresolve, hfile⟩ := read_eq_ok_iff.1 hread
  exact isThere_iff.2 ⟨place, hresolve, by simp [hfile]⟩

theorem refusesFile_keeping (r : Runner) (source target : String) (s : FileSystem) :
    r.keeping.refusesFile (.copy source target, s) = s.isFile target := by
  unfold refusesFile perform
  dsimp only
  cases hthere : s.isThere target with
  | true =>
    rw [copyBytes_of_isThere rfl hthere, beq_self_eq_true, Bool.true_and]
  | false =>
    have hfile : s.isFile target = false := by
      rw [← Bool.not_eq_true] at hthere ⊢
      exact fun hfile => hthere (isThere_of_isFile hfile)
    rw [hfile, Bool.and_false]

theorem RefusedAt.mono {events later : List Event} {place : List String}
    (h : r.RefusedAt events s place) (hgrows : GrowsBelow [] s t) (hevents : events ⊆ later) :
    r.RefusedAt later t place := by
  obtain ⟨target, htarget, hrefused, hresolve⟩ := h
  exact ⟨target, htarget, hevents hrefused, resolve_found_of_growsBelow hgrows hresolve⟩

/-- Sources are not among what was refused. -/
theorem not_refusedAt_of_source (hapart : r.RootsApart s) (hsource : r.naming.source source)
    (events : List Event) : ¬ r.RefusedAt events s (s.spot source) := by
  rintro ⟨target, ⟨names, htarget⟩, -, hresolve⟩
  have hplace : s.spot source = s.spot target := eq_spot_of_resolve hresolve
  refine not_below_of_source hapart hsource ?_
  rw [hplace, htarget.spot_eq]
  exact List.prefix_append _ names

/-! ## One item in both runs -/

/-- What both runs have come to: the file systems agree but for what was refused, and the second run
    has written `more` files than the first. -/
structure Parallel (r : Runner) (events : List Event) (more : Nat)
    (first second : List Event × FileSystem) : Prop where
  agree : Agree (r.RefusedAt (events ++ first.1) first.2) first.2 second.2
  written : (Report.ofEvents second.1).written = (Report.ofEvents first.1).written + more

theorem AgreeStep.parallel {events : List Event} {first second : List Event × FileSystem}
    (h : AgreeStep (r.RefusedAt events s) first second) (hgrows : GrowsBelow [] s first.2) :
    r.Parallel events 0 first second := by
  refine ⟨h.agree.mono fun place hplace => ?_, by rw [h.events, Nat.add_zero]⟩
  exact hplace.mono hgrows (List.subset_append_left _ _)

theorem parallel_copyBytes {events : List Event} (hfs : s.WellFormed) (hapart : r.RootsApart s)
    (hsource : r.naming.source source) (htarget : r.naming.file target)
    (h : Agree (r.RefusedAt events s) s t) :
    r.Parallel events (if s.isFile target && s.isFile source then 1 else 0)
      (r.keeping.copyBytes source target s) (r.replacing.copyBytes source target t) := by
  cases hthere : s.isThere target with
  | false =>
    have hfile : s.isFile target = false := by
      rw [← Bool.not_eq_true] at hthere ⊢
      exact fun hfile => hthere (isThere_of_isFile hfile)
    rw [hfile, Bool.false_and, if_neg Bool.false_ne_true]
    refine (agreeStep_copyBytes h (by rw [hthere, Bool.and_false]) rfl ?_).parallel
      (growsWell_copyBytes _ source target s).grows
    intro made hmade
    have hworkDir := (addsDirectories_makeParent s target).workDir
    rw [hmade] at hworkDir
    refine avoids_of_spot ?_
    rw [spot_congr hworkDir]
    exact not_refusedAt_of_source hapart hsource events
  | true =>
    -- the first run refuses the copy, and the second one tries it
    have hthere' : t.isThere target = true := (h.isThere_eq target).trans hthere
    obtain ⟨names, hextends⟩ := htarget
    rw [copyBytes_of_isThere rfl hthere, ← h.isFile_eq target, ← h.isFile_eq source]
    rcases replacing_copyBytes_cases (h.wellFormed hfs) hextends hthere' source with
      ⟨hboth, error, hcopy⟩ | ⟨hboth, place, old, bytes, done, hresolve, hfile, hwrites, hcopy⟩
    · rw [hboth, hcopy]
      refine ⟨h.mono fun place hplace => ?_, rfl⟩
      exact hplace.mono (.refl [] s) (List.subset_append_left _ _)
    · rw [hboth, hcopy]
      obtain ⟨old', hfile'⟩ := h.symm.exists_file hfile
      refine ⟨(h.replace hfile' hwrites).mono fun other hother => ?_, rfl⟩
      rcases hother with hother | rfl
      · exact hother.mono (.refl [] s) (List.subset_append_left _ _)
      · exact ⟨target, ⟨names, hextends⟩, by simp, (h.resolve_eq target).symm.trans hresolve⟩

theorem parallel_perform {events : List Event} {item : Item} (hfs : s.WellFormed)
    (hapart : r.RootsApart s) (hitem : item.IsWithin r.naming)
    (h : Agree (r.RefusedAt events s) s t) :
    r.Parallel events
      (if r.keeping.refusesFile (item, s) && canRead (item, s) then 1 else 0)
      (r.keeping.perform item s) (r.replacing.perform item t) := by
  have hgrows : GrowsBelow [] s (r.keeping.perform item s).2 :=
    (changes_perform r.keeping item s).growsWell.grows
  cases item with
  | start op => exact AgreeStep.parallel ⟨rfl, h⟩ hgrows
  | skip error => exact AgreeStep.parallel ⟨rfl, h⟩ hgrows
  | directory target => exact (agreeStep_makeCopy h target).parallel hgrows
  | copy source target =>
    rw [refusesFile_keeping]
    exact parallel_copyBytes hfs hapart hitem.1 hitem.2 h
  | filter source target =>
    have hsource := avoids_of_spot (not_refusedAt_of_source hapart hitem.1 events)
    exact (agreeStep_filterFile rfl h hsource target).parallel hgrows

/-! ## Both runs -/

theorem parallel_performAll {events : List Event} {items : List Item} (hfs : s.WellFormed)
    (hapart : r.RootsApart s) (hitems : ∀ item ∈ items, item.IsWithin r.naming)
    (h : Agree (r.RefusedAt events s) s t) :
    r.Parallel events
      ((r.keeping.meetings items s).countP fun meeting =>
        r.keeping.refusesFile meeting && canRead meeting)
      (r.keeping.performAll items s) (r.replacing.performAll items t) := by
  induction items generalizing s t events with
  | nil =>
    refine ⟨?_, rfl⟩
    rw [performAll_nil, List.append_nil]
    exact h
  | cons item items ih =>
    have hfirst := parallel_perform hfs hapart (hitems item List.mem_cons_self) h
    have hchanges := (changes_perform r.keeping item s).growsWell
    have hrest := ih (hchanges.wellFormed hfs) (hapart.congr hchanges.grows.workDir)
      (fun other hother => hitems other (List.mem_cons_of_mem _ hother)) hfirst.agree
    rw [performAll_cons, performAll_cons, meetings, List.countP_cons]
    refine ⟨by rw [← List.append_assoc]; exact hrest.agree, ?_⟩
    have hwritten := hfirst.written
    have hwritten' := hrest.written
    simp only [Report.ofEvents_append, Report.merge] at hwritten hwritten' ⊢
    omega

/-- Both runs are in lockstep as long as all paths go nowhere but down. -/
theorem lockstep_replacing (r : Runner) :
    r.keeping.Lockstep r.replacing
      (fun s t => s.WellFormed ∧ r.RootsApart s ∧ ∃ events, Agree (r.RefusedAt events s) s t)
      fun meeting => meeting.1.IsWithin r.naming where
  templateRoot := rfl
  outputRoot := rfl
  agree := by
    rintro s t ⟨-, -, events, h⟩
    exact ⟨_, h⟩
  perform := by
    rintro item s t ⟨hfs, hapart, events, h⟩ hitem
    have hgrows := (changes_perform r.keeping item s).growsWell
    exact ⟨hgrows.wellFormed hfs, hapart.congr hgrows.grows.workDir, _,
      (parallel_perform hfs hapart hitem h).agree⟩

/-- Both runs work off the same items. -/
theorem items_replacing {set : OperationSet} (hset : ∀ op ∈ set.operations, op.IsNamed)
    (hfs : s.WellFormed) (hapart : r.RootsApart s) :
    r.replacing.items set s = r.keeping.items set s := by
  have hitems : ∀ item ∈ r.keeping.items set s, item.IsWithin r.naming :=
    isWithin_items (r := r.keeping) (fun op hop => admits_naming (hset op hop)) hfs
  refine (lockstep_replacing r).sameScript_operations set.operations s s
    ⟨hfs, hapart, [], .refl _ s⟩ fun meeting hmeeting => ?_
  exact hitems _ (fst_mem_of_mem_meetings hmeeting)

theorem parallel_run {set : OperationSet} (hset : ∀ op ∈ set.operations, op.IsNamed)
    (hfs : s.WellFormed) (hapart : r.RootsApart s) :
    r.Parallel []
      ((r.keeping.meetings (r.keeping.items set s) s).countP fun meeting =>
        r.keeping.refusesFile meeting && canRead meeting)
      (r.keeping.run set s) (r.replacing.run set s) := by
  have hitems : ∀ item ∈ r.keeping.items set s, item.IsWithin r.naming :=
    isWithin_items (r := r.keeping) (fun op hop => admits_naming (hset op hop)) hfs
  rw [run_eq_performAll, run_eq_performAll, items_replacing hset hfs hapart]
  exact parallel_performAll hfs hapart hitems (.refl _ s)

/-- Whether or not it may overwrite, a run leaves the same directories and files. What they hold
    differs only where the run without leave has refused a copy, and what the run with leave writes
    more are the copies refused since there is a file at their target and whose source can be
    read. -/
theorem run_overwrite (r : Runner) (set : OperationSet) (fs : FileSystem) (hfs : fs.WellFormed)
    (hapart : r.RootsApart fs) (hset : ∀ op ∈ set.operations, op.IsNamed) :
    (∀ place, (r.replacing.run set fs).2.kind? place = (r.keeping.run set fs).2.kind? place) ∧
    (∀ place, (r.replacing.run set fs).2.lookup place ≠ (r.keeping.run set fs).2.lookup place →
      ∃ target, .skipped (.targetExists target) ∈ (r.keeping.run set fs).1 ∧
        (r.keeping.run set fs).2.resolve target = .ok (.found place)) ∧
    (Report.ofEvents (r.replacing.run set fs).1).written =
      (Report.ofEvents (r.keeping.run set fs).1).written +
        (r.keeping.meetings (r.keeping.items set fs) fs).countP fun meeting =>
          r.keeping.refusesFile meeting && canRead meeting := by
  have hparallel := parallel_run hset hfs hapart
  refine ⟨hparallel.agree.kind, fun place hdiffers => ?_, hparallel.written⟩
  by_contra hnot
  refine hdiffers (hparallel.agree.lookup place ?_)
  rintro ⟨target, -, hrefused, hresolve⟩
  exact hnot ⟨target, hrefused, hresolve⟩

/-! ## A copy that is refused -/

/-- A template with a directory of one file, and an output directory with the same. -/
def noteFiles : FileSystem :=
  let fs := ((FileSystem.mk [] []).makeDirectories "tpl/a").2
  let fs := (fs.write "tpl/a/note.txt" "new".toUTF8).2
  let fs := (fs.makeDirectories "out/b").2
  (fs.write "out/b/note.txt" "old".toUTF8).2

/-- Runs from the template that the path text leads to. -/
def noteRunner (templateRoot : String) : Runner :=
  ⟨id, templateRoot, "out", false⟩

/-- Copies the directory of the template. -/
def noteSet : OperationSet :=
  ⟨[⟨⟨["a"]⟩, ⟨["b"]⟩⟩], [], []⟩

theorem noteFiles_wellFormed : noteFiles.WellFormed := by
  unfold noteFiles
  have htemplate := wellFormed_makeDirectories wellFormed_empty "tpl/a"
  exact wellFormed_write (wellFormed_makeDirectories (wellFormed_write htemplate _ _) _) _ _

/-- What there is to begin with. -/
theorem noteFiles_given :
    LieApart (noteFiles.spot "out") (noteFiles.spot "tpl") ∧
      noteFiles.isDirectory (Path.join "tpl" "a") = true ∧
      noteFiles.list (Path.join "tpl" "a") = .ok [("note.txt", false)] := by
  decide +kernel

theorem noteSet_isNamed : ∀ op ∈ noteSet.operations, op.IsNamed := by decide

theorem run_overwrite_note : noteFiles.WellFormed ∧ (noteRunner "tpl").RootsApart noteFiles ∧
    (∀ op ∈ noteSet.operations, op.IsNamed) ∧
    (∀ place, ((noteRunner "tpl").replacing.run noteSet noteFiles).2.kind? place =
      ((noteRunner "tpl").keeping.run noteSet noteFiles).2.kind? place) ∧
    (Report.ofEvents ((noteRunner "tpl").replacing.run noteSet noteFiles).1).written =
      (Report.ofEvents ((noteRunner "tpl").keeping.run noteSet noteFiles).1).written + 1 := by
  have hapart : (noteRunner "tpl").RootsApart noteFiles := noteFiles_given.1
  obtain ⟨hkind, -, hwritten⟩ :=
    run_overwrite (noteRunner "tpl") noteSet noteFiles noteFiles_wellFormed hapart noteSet_isNamed
  have hcount : ((noteRunner "tpl").keeping.meetings
      ((noteRunner "tpl").keeping.items noteSet noteFiles) noteFiles).countP (fun meeting =>
        (noteRunner "tpl").keeping.refusesFile meeting && canRead meeting) = 1 := by
    decide +kernel
  rw [hcount] at hwritten
  exact ⟨noteFiles_wellFormed, hapart, noteSet_isNamed, hkind, hwritten⟩

/-- The template with so many slashes behind it that its directory is still in reach, but not the
    file in it. -/
def farTemplate : String :=
  slashed "tpl" 4087

theorem farTemplate_rootsApart : (noteRunner farTemplate).RootsApart noteFiles := by
  have hspot : noteFiles.spot farTemplate = noteFiles.spot "tpl" := by
    rw [farTemplate, (extends_slashed (by decide) 4087).spot_eq, List.append_nil]
  unfold RootsApart noteRunner
  dsimp only
  rw [hspot]
  exact noteFiles_given.1

/-- The directory is in reach. -/
theorem resolve_farTemplate (fs : FileSystem) :
    fs.resolve (Path.join farTemplate "a") = fs.resolve (Path.join "tpl" "a") := by
  have hname : IsName "a" := by decide
  have htpl : Accepts "tpl" := by
    unfold Accepts
    decide
  have haccepts : Accepts (Path.join farTemplate "a") := by
    refine accepts_join (accepts_slashed htpl (by decide)) (by decide) (by decide) ?_
    rw [farTemplate, utf8ByteSize_slashed]
    decide
  have hshort : Accepts (Path.join "tpl" "a") :=
    accepts_join htpl (by decide) (by decide) (by decide)
  exact ((extends_slashed (by decide) 4087).join_name hname).resolve_congr
    ((Extends.refl "tpl").join_name hname) haccepts hshort fs

/-- A longer name in it is not. -/
theorem not_accepts_join_farTemplate {name : String} (hname : Path.isAbsolute name.toList = false)
    (hlong : 5 ≤ name.utf8ByteSize) :
    ¬ Accepts (Path.join (Path.join farTemplate "a") name) := by
  intro haccepts
  have htemplate : farTemplate.utf8ByteSize = "tpl".utf8ByteSize + 4087 :=
    utf8ByteSize_slashed "tpl" 4087
  have hdirectory : farTemplate.utf8ByteSize + "a".utf8ByteSize ≤
      (Path.join farTemplate "a").utf8ByteSize := le_utf8ByteSize_join farTemplate (by decide)
  have hfile : (Path.join farTemplate "a").utf8ByteSize + name.utf8ByteSize ≤
      (Path.join (Path.join farTemplate "a") name).utf8ByteSize :=
    le_utf8ByteSize_join (Path.join farTemplate "a") hname
  have hsize := haccepts.2.2
  have htpl : "tpl".utf8ByteSize = 3 := by decide
  have ha : "a".utf8ByteSize = 1 := by decide
  unfold pathLimit at hsize
  omega

theorem not_accepts_farTemplate :
    ¬ Accepts (Path.join (Path.join farTemplate "a") "note.txt") :=
  not_accepts_join_farTemplate (by decide) (by decide)

/-- The file that is out of reach is copied all the same, and this is refused. -/
theorem items_farTemplate :
    (noteRunner farTemplate).keeping.items noteSet noteFiles =
      [.start ⟨.copySubtree, ⟨⟨["a"]⟩, ⟨["b"]⟩⟩⟩, .directory "out/b/",
        .copy (Path.join (Path.join farTemplate "a") "note.txt") "out/b/note.txt"] := by
  have hresolve := resolve_farTemplate noteFiles
  have hdirectory : noteFiles.isDirectory (Path.join farTemplate "a") = true :=
    (isDirectory_congr hresolve).trans noteFiles_given.2.1
  have hlist : noteFiles.list (Path.join farTemplate "a") = .ok [("note.txt", false)] :=
    (list_congr_path hresolve).trans noteFiles_given.2.2
  have hcopy : Path.join ((noteRunner farTemplate).keeping.targetOf
      ⟨.copySubtree, ⟨⟨["a"]⟩, ⟨["b"]⟩⟩⟩) "" = "out/b/" := by
    unfold targetOf
    decide
  have hfile : Path.join "out/b/" "note.txt" = "out/b/note.txt" := by decide
  have hroom : pathLimit = 4095 + 1 := rfl
  change gather _ [operationItems _ ⟨.copySubtree, ⟨⟨["a"]⟩, ⟨["b"]⟩⟩⟩] noteFiles = _
  rw [gather, gather, List.append_nil, operationItems]
  dsimp only
  rw [show (noteRunner farTemplate).keeping.sourceOf ⟨.copySubtree, ⟨⟨["a"]⟩, ⟨["b"]⟩⟩⟩ =
    Path.join farTemplate "a" from rfl, if_pos hdirectory, hcopy, hroom, directoryItems_succ 4095 hlist,
    entryScripts, List.map_singleton, gather, gather, gather]
  dsimp only
  rw [if_neg Bool.false_ne_true, hfile]
  rfl

/-- A copy whose source is out of reach is refused as well, but not written by the run with leave. -/
theorem exists_run_overwrite_fewer : ¬ ∀ (r : Runner) (set : OperationSet) (fs : FileSystem),
    fs.WellFormed → r.RootsApart fs → (∀ op ∈ set.operations, op.IsNamed) →
      (Report.ofEvents (r.replacing.run set fs).1).written =
        (Report.ofEvents (r.keeping.run set fs).1).written +
          (r.keeping.meetings (r.keeping.items set fs) fs).countP r.keeping.refusesFile := by
  intro hall
  have hclaimed := hall (noteRunner farTemplate) noteSet noteFiles noteFiles_wellFormed
    farTemplate_rootsApart noteSet_isNamed
  have hwritten :=
    (parallel_run noteSet_isNamed noteFiles_wellFormed farTemplate_rootsApart).written
  set made := (makeCopy "out/b/" noteFiles).2 with hmade
  have hmeetings : (noteRunner farTemplate).keeping.meetings
      ((noteRunner farTemplate).keeping.items noteSet noteFiles) noteFiles =
        [(.start ⟨.copySubtree, ⟨⟨["a"]⟩, ⟨["b"]⟩⟩⟩, noteFiles), (.directory "out/b/", noteFiles),
          (.copy (Path.join (Path.join farTemplate "a") "note.txt") "out/b/note.txt", made)] := by
    rw [items_farTemplate]
    rfl
  have hrefused : made.isFile "out/b/note.txt" = true := by
    rw [hmade]
    decide +kernel
  have hfar := isFile_of_not_accepts made not_accepts_farTemplate
  have hone : ((noteRunner farTemplate).keeping.meetings
      ((noteRunner farTemplate).keeping.items noteSet noteFiles) noteFiles).countP
        (noteRunner farTemplate).keeping.refusesFile = 1 := by
    have hcopy := refusesFile_keeping (noteRunner farTemplate)
      (Path.join (Path.join farTemplate "a") "note.txt") "out/b/note.txt" made
    rw [hmeetings, List.countP_cons_of_neg Bool.false_ne_true,
      List.countP_cons_of_neg Bool.false_ne_true, List.countP_cons_of_pos (hcopy.trans hrefused),
      List.countP_nil]
  have hnone : ((noteRunner farTemplate).keeping.meetings
      ((noteRunner farTemplate).keeping.items noteSet noteFiles) noteFiles).countP
        (fun meeting => (noteRunner farTemplate).keeping.refusesFile meeting && canRead meeting) =
          0 := by
    simp [hmeetings, canRead, hfar]
  omega

end Runner

end Scaffold
