import Scaffold.Proofs.Run.Mirroring
import Scaffold.Proofs.Run.Overwriting
import Scaffold.Proofs.Run.Supplying

set_option autoImplicit false

/-! # Copies of subtrees

What an operation comes to that copies a subtree. Where nothing is at its target yet, the tree at the
target is that at the source afterwards, and besides it only missing directories above the target
were made. Where there is a directory already and the runner may not overwrite, what was there is
kept, and each file is copied or passed over once. The system limits how long a path text may be, so
this is said of what is in reach of the walk (`runOperation_copySubtree`). -/

namespace Scaffold

open FileSystem

namespace Runner

variable {r : Runner} {op : Operation} {fs made : FileSystem}

/-- Everything below the source is found by the path text that the walk reaches it by, and the path
    text of its copy is not too long for the system. -/
def IsInReach (r : Runner) (op : Operation) (fs : FileSystem) : Prop :=
  ∀ names, fs.lookup (fs.spot (r.sourceOf op) ++ names) ≠ none →
    fs.isThere (along (r.sourceOf op) names) = true ∧
      (along (Path.join (r.targetOf op) "") names).utf8ByteSize < pathLimit

/-- The tree at the target is what the tree at the source was, the source is the same, and outside
    the target only missing directories above it were made. Nothing was passed over, and all files
    were counted. -/
structure Mirrors (r : Runner) (op : Operation) (fs : FileSystem)
    (outcome : List Event × FileSystem) : Prop where
  tree : ∀ names, outcome.2.lookup (fs.spot (r.targetOf op) ++ names) =
    fs.lookup (fs.spot (r.sourceOf op) ++ names)
  skipped : (Report.ofEvents outcome.1).skipped = []
  written : (Report.ofEvents outcome.1).written =
    {names | fs.kind? (fs.spot (r.sourceOf op) ++ names) = some .file}.ncard
  source : ∀ names, outcome.2.lookup (fs.spot (r.sourceOf op) ++ names) =
    fs.lookup (fs.spot (r.sourceOf op) ++ names)
  outside : ∀ place, ¬ fs.spot (r.targetOf op) <+: place →
    outcome.2.lookup place ≠ fs.lookup place →
      place <+: fs.spot (r.targetOf op) ∧ fs.lookup place = none ∧
        outcome.2.lookup place = some .directory

/-- Each file that the walk comes to stands at its place below the target or was passed over once,
    and what was below the target is the same. -/
structure Fills (r : Runner) (op : Operation) (fs : FileSystem)
    (outcome : List Event × FileSystem) : Prop where
  file : ∀ names, fs.Visits (r.sourceOf op) names → ∀ bytes,
    fs.lookup (fs.spot (r.sourceOf op) ++ names) = some (.file bytes) →
      IsSupplied bytes (fs.spot (r.targetOf op) ++ names) (along (r.sourceOf op) names)
        (along (Path.join (r.targetOf op) "") names) outcome
  kept : ∀ names, fs.lookup (fs.spot (r.targetOf op) ++ names) ≠ none →
    outcome.2.lookup (fs.spot (r.targetOf op) ++ names) =
      fs.lookup (fs.spot (r.targetOf op) ++ names)

/-! ## Path texts in reach -/

theorem null_not_mem_along {path : String} {names : List String} (hpath : '\x00' ∉ path.toList)
    (h : ∀ name ∈ names, IsLegal name) : '\x00' ∉ (along path names).toList := by
  induction names generalizing path with
  | nil => exact hpath
  | cons name rest ih =>
    obtain ⟨hname, hnull, -⟩ := h name List.mem_cons_self
    refine ih (null_not_mem_join hpath hnull (isAbsolute_of_isName hname)) ?_
    exact fun other hother => h other (List.mem_cons_of_mem _ hother)

theorem extends_targetOf (r : Runner)
    (hlegal : ∀ segment ∈ op.transfer.target.segments, IsLegal segment) :
    Extends r.outputRoot (r.targetOf op) op.transfer.target.segments :=
  extends_below r.outputRoot fun segment hsegment => (hlegal segment hsegment).isName

/-- What is in reach has names that the system takes. -/
theorem IsInReach.isLegal (h : r.IsInReach op fs) (hfs : fs.WellFormed) {names : List String}
    (hthere : fs.lookup (fs.spot (r.sourceOf op) ++ names) ≠ none) :
    ∀ name ∈ names, IsLegal name := by
  intro name hmem
  obtain ⟨before, after, rfl⟩ := List.append_of_mem hmem
  have hname : IsName name := hfs.isName _ hthere name (by simp)
  have hon : fs.spot (r.sourceOf op) ++ (before ++ [name]) <+:
      fs.spot (r.sourceOf op) ++ (before ++ name :: after) := ⟨after, by simp⟩
  have hfound := (h _ (lookup_ne_none_above hon hthere)).1
  have halong : along (r.sourceOf op) (before ++ [name]) =
      Path.join (along (r.sourceOf op) before) name := List.foldl_append
  rw [halong] at hfound
  exact isLegal_of_isThere hname hfound

theorem IsInReach.reaches (h : r.IsInReach op fs) (hfs : fs.WellFormed)
    (hroot : fs.isDirectory r.outputRoot = true) (hne : op.transfer.target.segments ≠ [])
    (hlegal : ∀ segment ∈ op.transfer.target.segments, IsLegal segment) :
    Reaches fs (r.sourceOf op) (Path.join (r.targetOf op) "") := by
  intro names hthere
  obtain ⟨hfound, hshort⟩ := h names hthere
  have hnames := h.isLegal hfs hthere
  have htarget := (extends_targetOf r hlegal).join_empty
  have hextends := htarget.trans (extends_along (fun name hname => (hnames name hname).isName) _)
  have hnull : '\x00' ∉ (r.targetOf op).toList :=
    null_not_mem_along (isDirectory_iff.1 hroot).1.1 hlegal
  have hempty : '\x00' ∉ (Path.join (r.targetOf op) "").toList :=
    null_not_mem_join hnull (by simp) (by decide)
  exact ⟨hfound, null_not_mem_along hempty hnames, hextends.ne_empty (by simp [hne]), hshort⟩

/-! ## The operation -/

/-- What is said of the source and the copies stays true while nothing at the source changes. -/
theorem Reaches.of_growsBelow {source target : String} {top : List String}
    (h : Reaches fs source target) (hgrows : GrowsBelow top fs made)
    (hsame : ∀ names, made.lookup (fs.spot source ++ names) = fs.lookup (fs.spot source ++ names)) :
    Reaches made source target := by
  intro names hthere
  rw [spot_congr hgrows.workDir, hsame] at hthere
  obtain ⟨hfound, haccepts⟩ := h names hthere
  exact ⟨isThere_of_growsBelow hgrows hfound, haccepts⟩

theorem list_of_growsBelow {source : String} {top : List String}
    (hsource : fs.isDirectory source = true) (hgrows : GrowsBelow top fs made)
    (hsame : ∀ names, made.lookup (fs.spot source ++ names) = fs.lookup (fs.spot source ++ names)) :
    fs.list source = made.list source := by
  obtain ⟨place, hplace, -⟩ := isDirectory_iff_resolve.1 hsource
  have hmade := resolve_found_of_growsBelow hgrows hplace
  refine list_congr (hplace.trans hmade.symm) fun other hother rest => ?_
  obtain rfl : other = made.spot source := eq_spot_of_resolve hother
  rw [spot_congr hgrows.workDir]
  exact kind?_congr (hsame rest).symm

/-- An output root is there, so what is not there stands below it. -/
theorem segments_ne_nil (hroot : fs.isDirectory r.outputRoot = true)
    (hlegal : ∀ segment ∈ op.transfer.target.segments, IsLegal segment)
    (hfree : fs.lookup (fs.spot (r.targetOf op)) = none) : op.transfer.target.segments ≠ [] := by
  intro hnil
  rw [(extends_targetOf r hlegal).spot_eq, hnil, List.append_nil,
    (isRoot_of_isDirectory hroot).directory] at hfree
  simp at hfree

/-- Where only missing directories are in the way, the target can be made a directory, and besides
    it only directories above it are. -/
theorem exists_makesFresh_targetOf (hroot : fs.isDirectory r.outputRoot = true)
    (hlegal : ∀ segment ∈ op.transfer.target.segments, IsLegal segment)
    (haccepts : Accepts (Path.join (r.targetOf op) ""))
    (hfree : fs.lookup (fs.spot (r.targetOf op)) = none)
    (hway : ∀ way, way <+: fs.spot (r.targetOf op) → ∀ bytes,
      fs.lookup way ≠ some (.file bytes)) :
    ∃ made, fs.MakesFresh (Path.join (r.targetOf op) "") (fs.spot (r.targetOf op)) made ∧
      AddsDirectories (fs.spot r.outputRoot) fs made ∧
      ∀ place, made.lookup place ≠ fs.lookup place → place <+: fs.spot (r.targetOf op) := by
  have hextends := extends_targetOf r hlegal
  have hne := segments_ne_nil hroot hlegal hfree
  rw [hextends.spot_eq] at hfree hway ⊢
  exact exists_makesFresh_names hextends.join_empty hne (isRoot_of_isDirectory hroot) haccepts
    hlegal hway hfree

/-- A subtree that is copied to where nothing is stands there afterwards as it is. -/
theorem mirrors_runOperation (hfs : fs.WellFormed) (hkind : op.kind = .copySubtree)
    (hsource : fs.isDirectory (r.sourceOf op) = true)
    (hlegal : ∀ segment ∈ op.transfer.target.segments, IsLegal segment)
    (hapart : LieApart (fs.spot (r.targetOf op)) (fs.spot (r.sourceOf op)))
    (hroot : fs.isDirectory r.outputRoot = true)
    (hfree : fs.lookup (fs.spot (r.targetOf op)) = none)
    (hway : ∀ way, way <+: fs.spot (r.targetOf op) → ∀ bytes, fs.lookup way ≠ some (.file bytes))
    (hreach : r.IsInReach op fs) : r.Mirrors op fs (r.runOperation op fs) := by
  have hsourceIs := isRoot_of_isDirectory hsource
  have hreaches := hreach.reaches hfs hroot (segments_ne_nil hroot hlegal hfree) hlegal
  obtain ⟨-, haccepts⟩ := hreaches [] (by simp [hsourceIs.directory])
  obtain ⟨made, hmade, hadds, hchanged⟩ :=
    exists_makesFresh_targetOf hroot hlegal haccepts hfree hway
  have hgrows := hadds.growsBelow
  -- the directories that were made stand above the target, so none of them is at the source
  have hsame : ∀ names, made.lookup (fs.spot (r.sourceOf op) ++ names) =
      fs.lookup (fs.spot (r.sourceOf op) ++ names) := by
    intro names
    by_contra hne
    exact hapart.not_above ((List.prefix_append _ names).trans (hchanged _ hne))
  have hspot : made.spot (r.sourceOf op) = fs.spot (r.sourceOf op) := spot_congr hgrows.workDir _
  have hmadeFormed : made.WellFormed := by
    have hformed := wellFormed_makeDirectories hfs (Path.join (r.targetOf op) "")
    rwa [hmade.makes] at hformed
  have hmadeReaches := hreaches.of_growsBelow hgrows hsame
  have hcopy := replicates_copyDirectory r hmadeFormed (hsourceIs.of_growsBelow hgrows).leadsTo
    hapart pathLimit (.refl _) (isDirectory_of_growsBelow hgrows hsource) hmadeReaches
    (Nat.le_add_right _ _) (list_of_growsBelow hsource hgrows hsame) hmade (.refl _ made)
    List.prefix_rfl
  rw [runOperation_of_copySubtree hkind hsource]
  refine ⟨fun names => ?_, hcopy.skipped, ?_, fun names => ?_, fun place hplace hne => ?_⟩
  · rw [hcopy.below names, hspot, hsame]
  · refine hcopy.written.trans ?_
    rw [filesBelow_eq_ncard (hmadeReaches.visitsAll hmadeFormed), hspot]
    simp only [kind?_congr (hsame _)]
  · exact (hcopy.outside _ (hapart.not_prefix_append names)).trans (hsame names)
  · rw [hcopy.outside place hplace] at hne ⊢
    refine ⟨hchanged place hne, ?_, (hadds.gained place hne).1⟩
    by_contra hthere
    exact hne (hadds.kept place hthere)

/-- A subtree that is copied into a directory without leave to overwrite adds to what is there. -/
theorem fills_runOperation (hr : r.overwrite = false) (hfs : fs.WellFormed)
    (hkind : op.kind = .copySubtree) (hsource : fs.isDirectory (r.sourceOf op) = true)
    (hapart : LieApart (fs.spot (r.targetOf op)) (fs.spot (r.sourceOf op)))
    (htarget : fs.isDirectory (r.targetOf op) = true) :
    r.Fills op fs (r.runOperation op fs) := by
  have hsourceIs := isRoot_of_isDirectory hsource
  have hextends := (Extends.refl (r.targetOf op)).join_empty
  have hspot : fs.spot (Path.join (r.targetOf op) "") = fs.spot (r.targetOf op) := by
    rw [hextends.spot_eq, List.append_nil]
  have hcopy := supplies_copyDirectory hr hfs hsourceIs.leadsTo (isRoot_of_isDirectory htarget)
    hapart pathLimit (.refl _) hextends (kind?_eq_directory_iff.2 hsourceIs.directory)
    (Nat.le_add_right _ _) (.refl _ fs)
  rw [runOperation_of_copySubtree hkind hsource]
  refine ⟨fun names hvisits bytes hfile => ?_, fun names hthere => hcopy.adds.kept _ hthere⟩
  rw [← hspot]
  exact hcopy.file names hvisits bytes hfile

/-- What a copy of a subtree comes to, if its source is a directory, the system takes the names of
    its target, and neither of the two lies within the other. -/
theorem runOperation_copySubtree (r : Runner) (op : Operation) (fs : FileSystem)
    (hfs : fs.WellFormed) (hkind : op.kind = .copySubtree)
    (hsource : fs.isDirectory (r.sourceOf op) = true)
    (hlegal : ∀ segment ∈ op.transfer.target.segments, IsLegal segment)
    (hapart : LieApart (fs.spot (r.targetOf op)) (fs.spot (r.sourceOf op))) :
    (fs.lookup (fs.spot (r.targetOf op)) = none → fs.isDirectory r.outputRoot = true →
        (∀ way, way <+: fs.spot (r.targetOf op) → ∀ bytes, fs.lookup way ≠ some (.file bytes)) →
        r.IsInReach op fs → r.Mirrors op fs (r.runOperation op fs)) ∧
      (fs.isDirectory (r.targetOf op) = true → r.overwrite = false →
        r.Fills op fs (r.runOperation op fs)) := by
  constructor
  · intro hfree hroot hway hreach
    exact mirrors_runOperation hfs hkind hsource hlegal hapart hroot hfree hway hreach
  · intro htarget hr
    exact fills_runOperation hr hfs hkind hsource hapart htarget

/-- Copies the directory of the template. -/
def noteCopy (target : String) : Operation :=
  ⟨.copySubtree, ⟨⟨["a"]⟩, ⟨[target]⟩⟩⟩

theorem noteCopy_isLegal {target : String} (h : IsLegal target) :
    ∀ segment ∈ (noteCopy target).transfer.target.segments, IsLegal segment := by
  simpa [noteCopy] using h

/-- What there is to begin with: nothing stands at one of the targets, and a directory at the
    other. -/
theorem noteCopy_given :
    noteFiles.isDirectory ((noteRunner "tpl").sourceOf (noteCopy "c")) = true ∧
      LieApart (noteFiles.spot ((noteRunner "tpl").targetOf (noteCopy "c")))
        (noteFiles.spot ((noteRunner "tpl").sourceOf (noteCopy "c"))) ∧
      LieApart (noteFiles.spot ((noteRunner "tpl").targetOf (noteCopy "b")))
        (noteFiles.spot ((noteRunner "tpl").sourceOf (noteCopy "b"))) ∧
      noteFiles.isDirectory (noteRunner "tpl").outputRoot = true ∧
      noteFiles.spot ((noteRunner "tpl").targetOf (noteCopy "c")) = ["out"] ++ ["c"] ∧
      noteFiles.lookup ["out"] = some .directory ∧ noteFiles.lookup (["out"] ++ ["c"]) = none ∧
      noteFiles.isDirectory ((noteRunner "tpl").targetOf (noteCopy "b")) = true ∧
      noteFiles.kind? (noteFiles.spot (Path.join "tpl" "a") ++ ["note.txt"]) = some .file := by
  decide +kernel

/-- The directory and its file are found by short path texts. -/
theorem noteCopy_isInReach : (noteRunner "tpl").IsInReach (noteCopy "c") noteFiles := by
  intro names hthere
  have hsource : (noteRunner "tpl").sourceOf (noteCopy "c") = Path.join "tpl" "a" := rfl
  rw [hsource] at hthere ⊢
  rcases names with _ | ⟨name, rest⟩
  · decide +kernel
  · have hentry := (mem_entries_iff noteFiles_given.2.2).2
      ⟨lookup_ne_none_above (prefix_of_cons _ name rest) hthere, rfl⟩
    obtain rfl : name = "note.txt" := (Prod.mk.inj (List.mem_singleton.1 hentry)).1
    obtain ⟨entry, hrest⟩ := Option.ne_none_iff_exists'.1 hthere
    rw [← List.singleton_append, ← List.append_assoc] at hrest
    obtain rfl := eq_nil_of_kind?_file noteCopy_given.2.2.2.2.2.2.2.2 hrest
    decide +kernel

theorem runOperation_copySubtree_note :
    noteFiles.WellFormed ∧
      noteFiles.isDirectory ((noteRunner "tpl").sourceOf (noteCopy "c")) = true ∧
      LieApart (noteFiles.spot ((noteRunner "tpl").targetOf (noteCopy "c")))
        (noteFiles.spot ((noteRunner "tpl").sourceOf (noteCopy "c"))) ∧
      noteFiles.lookup (noteFiles.spot ((noteRunner "tpl").targetOf (noteCopy "c"))) = none ∧
      noteFiles.isDirectory (noteRunner "tpl").outputRoot = true ∧
      (noteRunner "tpl").IsInReach (noteCopy "c") noteFiles ∧
      LieApart (noteFiles.spot ((noteRunner "tpl").targetOf (noteCopy "b")))
        (noteFiles.spot ((noteRunner "tpl").sourceOf (noteCopy "b"))) ∧
      noteFiles.isDirectory ((noteRunner "tpl").targetOf (noteCopy "b")) = true ∧
      (noteRunner "tpl").Mirrors (noteCopy "c") noteFiles
        ((noteRunner "tpl").runOperation (noteCopy "c") noteFiles) ∧
      (noteRunner "tpl").Fills (noteCopy "b") noteFiles
        ((noteRunner "tpl").runOperation (noteCopy "b") noteFiles) := by
  obtain ⟨hsource, hapart, hapart', hroot, hspot, hout, hfree, htarget, -⟩ := noteCopy_given
  have hway : ∀ way, way <+: noteFiles.spot ((noteRunner "tpl").targetOf (noteCopy "c")) →
      ∀ bytes, noteFiles.lookup way ≠ some (.file bytes) := by
    rw [hspot]
    exact lookup_ne_file_of_free hout hfree
  obtain ⟨hmirrors, -⟩ := runOperation_copySubtree (noteRunner "tpl") (noteCopy "c") noteFiles
    noteFiles_wellFormed rfl hsource (noteCopy_isLegal (by decide)) hapart
  obtain ⟨-, hfills⟩ := runOperation_copySubtree (noteRunner "tpl") (noteCopy "b") noteFiles
    noteFiles_wellFormed rfl hsource (noteCopy_isLegal (by decide)) hapart'
  rw [← hspot] at hfree
  exact ⟨noteFiles_wellFormed, hsource, hapart, hfree, hroot, noteCopy_isInReach, hapart', htarget,
    hmirrors hfree hroot hway noteCopy_isInReach, hfills htarget rfl⟩

/-! ## A directory that is out of reach -/

/-- A template with a directory in a directory, and an output directory with an empty one. -/
def deepFiles : FileSystem :=
  let fs := ((FileSystem.mk [] []).makeDirectories "tpl/a/inner").2
  let fs := (fs.write "tpl/a/inner/note.txt" "new".toUTF8).2
  (fs.makeDirectories "out/b").2

theorem deepFiles_wellFormed : deepFiles.WellFormed := by
  unfold deepFiles
  have htemplate := wellFormed_makeDirectories wellFormed_empty "tpl/a/inner"
  exact wellFormed_makeDirectories (wellFormed_write htemplate _ _) _

/-- What there is to begin with, told by short path texts. -/
theorem deepFiles_given :
    deepFiles.isDirectory (Path.join "tpl" "a") = true ∧
      deepFiles.list (Path.join "tpl" "a") = .ok [("inner", true)] ∧
      deepFiles.spot (Path.join "tpl" "a") = ["tpl", "a"] ∧
      deepFiles.isDirectory "out" = true ∧
      deepFiles.spot ((noteRunner farTemplate).targetOf (noteCopy "c")) = ["out"] ++ ["c"] ∧
      deepFiles.spot ((noteRunner farTemplate).targetOf (noteCopy "b")) = ["out"] ++ ["b"] ∧
      deepFiles.lookup ["out"] = some .directory ∧ deepFiles.lookup (["out"] ++ ["c"]) = none ∧
      deepFiles.isDirectory "out/b" = true ∧
      deepFiles.kind? ["tpl", "a", "inner", "note.txt"] = some .file ∧
      deepFiles.lookup ["out", "b", "inner", "note.txt"] = none := by
  decide +kernel

theorem spot_farTemplate (fs : FileSystem) :
    fs.spot (Path.join farTemplate "a") = fs.spot (Path.join "tpl" "a") := by
  have hname : IsName "a" := by decide
  rw [spot_join fs farTemplate hname, spot_join fs "tpl" hname, farTemplate,
    (extends_slashed (by decide) 4087).spot_eq, List.append_nil]

/-- The directory that is copied is in reach by the longer path text as well. -/
theorem sourceOf_deep (target : String) :
    deepFiles.isDirectory ((noteRunner farTemplate).sourceOf (noteCopy target)) = true ∧
      deepFiles.list ((noteRunner farTemplate).sourceOf (noteCopy target)) =
        .ok [("inner", true)] ∧
      deepFiles.spot ((noteRunner farTemplate).sourceOf (noteCopy target)) = ["tpl", "a"] := by
  obtain ⟨hdirectory, hlist, hspot, -⟩ := deepFiles_given
  have hresolve := resolve_farTemplate deepFiles
  exact ⟨(isDirectory_congr hresolve).trans hdirectory, (list_congr_path hresolve).trans hlist,
    (spot_farTemplate deepFiles).trans hspot⟩

/-- Where a directory holds one directory that is out of reach, the copies of both are made, and the
    inner one stays empty. -/
theorem exists_copyDirectory_unlisted (r : Runner) (room : Nat) {source name : String}
    (hlist : fs.list source = .ok [(name, true)]) (hlong : ¬ Accepts (Path.join source name))
    (target : String) :
    ∃ error : Error, (∀ first second, error.isRefusalOf first second = false) ∧
      r.copyDirectory (room + 1) source target fs =
        Step.seq [makeCopy target, makeCopy (Path.join target name), Step.skip error] fs := by
  have hentries : r.copyEntries room source target [(name, true)] =
      [r.copyDirectory room (Path.join source name) (Path.join target name)] := rfl
  cases hinner : (makeCopy target fs).2.list (Path.join source name) with
  | ok entries =>
    have hdirectory := isDirectory_iff_exists_list.2 ⟨entries, hinner⟩
    rw [isDirectory_of_not_accepts _ hlong] at hdirectory
    exact absurd hdirectory Bool.false_ne_true
  | error cause =>
    refine ⟨.read (Path.join source name) (.listing (Path.join source name) cause),
      fun _ _ => rfl, ?_⟩
    rw [copyDirectory_succ room hlist, hentries]
    simp only [Step.seq, copyDirectory_of_error room hinner, List.append_nil]

/-- Where copies of directories are made and then an error is told that is about no file, no file
    has come to be. -/
theorem makeCopies_skip {error : Error} (h : ∀ first second, error.isRefusalOf first second = false)
    (op : Operation) (first second : String) (fs : FileSystem) {outcome : List Event × FileSystem}
    (houtcome : outcome = (.started op ::
      (Step.seq [makeCopy first, makeCopy second, Step.skip error] fs).1,
        (Step.seq [makeCopy first, makeCopy second, Step.skip error] fs).2)) :
    (Report.ofEvents outcome.1).skipped ≠ [] ∧
      (∀ source target, (Report.ofEvents outcome.1).refusals source target = 0) ∧
      ∀ place bytes, outcome.2.lookup place = some (.file bytes) →
        fs.lookup place = some (.file bytes) := by
  subst houtcome
  simp only [Step.seq, Step.skip, List.append_nil]
  refine ⟨List.ne_nil_of_mem (a := error) ?_, fun source target => ?_, fun place bytes hfile => ?_⟩
  · exact List.mem_filterMap.2 ⟨.skipped error, by simp, rfl⟩
  · have hstart : (Report.ofEvents [.started op]).refusals source target = 0 := rfl
    have hlast : (Report.ofEvents [.skipped error]).refusals source target = 0 :=
      List.countP_eq_zero.2 fun other hother => by simp [List.mem_singleton.1 hother, h]
    rw [← List.singleton_append, Report.refusals_ofEvents_append, hstart]
    simp only [Report.refusals_ofEvents_append, refusals_makeCopy, hlast]
  · simp only [makeCopy_eq] at hfile
    rwa [(addsDirectories_makeDirectories _ _).file_iff,
      (addsDirectories_makeDirectories _ _).file_iff] at hfile

/-- An error is told, but it is about no file, and no file has come to be. -/
theorem runOperation_deep (target : String) :
    (Report.ofEvents
        ((noteRunner farTemplate).runOperation (noteCopy target) deepFiles).1).skipped ≠ [] ∧
      (∀ first second, (Report.ofEvents ((noteRunner farTemplate).runOperation (noteCopy target)
        deepFiles).1).refusals first second = 0) ∧
      ∀ place bytes, ((noteRunner farTemplate).runOperation (noteCopy target) deepFiles).2.lookup
        place = some (.file bytes) → deepFiles.lookup place = some (.file bytes) := by
  obtain ⟨hfar, hlist, -⟩ := sourceOf_deep target
  have hrun := runOperation_of_copySubtree rfl hfar
  have hroom : pathLimit = 4095 + 1 := rfl
  obtain ⟨error, hrefusal, hcopy⟩ := exists_copyDirectory_unlisted (noteRunner farTemplate) 4095
    hlist (not_accepts_join_farTemplate (by decide) (by decide))
    (Path.join ((noteRunner farTemplate).targetOf (noteCopy target)) "")
  rw [hroom, hcopy] at hrun
  exact makeCopies_skip hrefusal (noteCopy target) _ _ deepFiles hrun

/-- Where a directory of the subtree is out of reach, neither does the tree at a free target become
    what the subtree was, nor is each file copied or passed over where there was a directory. -/
theorem exists_copySubtree_incomplete :
    (¬ ∀ (r : Runner) (op : Operation) (fs : FileSystem), fs.WellFormed → op.kind = .copySubtree →
      fs.isDirectory (r.sourceOf op) = true →
      (∀ segment ∈ op.transfer.target.segments, IsLegal segment) →
      LieApart (fs.spot (r.targetOf op)) (fs.spot (r.sourceOf op)) →
      fs.lookup (fs.spot (r.targetOf op)) = none → fs.isDirectory r.outputRoot = true →
      (∀ way, way <+: fs.spot (r.targetOf op) → ∀ bytes, fs.lookup way ≠ some (.file bytes)) →
      r.Mirrors op fs (r.runOperation op fs)) ∧
    ¬ ∀ (r : Runner) (op : Operation) (fs : FileSystem), fs.WellFormed → op.kind = .copySubtree →
      fs.isDirectory (r.sourceOf op) = true →
      (∀ segment ∈ op.transfer.target.segments, IsLegal segment) →
      LieApart (fs.spot (r.targetOf op)) (fs.spot (r.sourceOf op)) →
      fs.isDirectory (r.targetOf op) = true → r.overwrite = false →
      ∀ names bytes, fs.lookup (fs.spot (r.sourceOf op) ++ names) = some (.file bytes) →
        IsSupplied bytes (fs.spot (r.targetOf op) ++ names) (along (r.sourceOf op) names)
          (along (Path.join (r.targetOf op) "") names) (r.runOperation op fs) := by
  obtain ⟨-, -, -, hroot, hfresh, htaken, hout, hfree, hdirectory, hfile, hnone⟩ := deepFiles_given
  constructor
  · intro hall
    obtain ⟨hfar, -, hspot⟩ := sourceOf_deep "c"
    have hapart : LieApart (deepFiles.spot ((noteRunner farTemplate).targetOf (noteCopy "c")))
        (deepFiles.spot ((noteRunner farTemplate).sourceOf (noteCopy "c"))) := by
      rw [hfresh, hspot]
      decide
    have hway := lookup_ne_file_of_free hout hfree
    rw [← hfresh] at hfree hway
    have hmirrors := hall (noteRunner farTemplate) (noteCopy "c") deepFiles deepFiles_wellFormed
      rfl hfar (noteCopy_isLegal (by decide)) hapart hfree hroot hway
    exact (runOperation_deep "c").1 hmirrors.skipped
  · intro hall
    obtain ⟨hfar, -, hspot⟩ := sourceOf_deep "b"
    have hapart : LieApart (deepFiles.spot ((noteRunner farTemplate).targetOf (noteCopy "b")))
        (deepFiles.spot ((noteRunner farTemplate).sourceOf (noteCopy "b"))) := by
      rw [htaken, hspot]
      decide
    obtain ⟨bytes, hbytes⟩ := kind?_eq_file_iff.1 hfile
    have hnote : deepFiles.lookup (deepFiles.spot ((noteRunner farTemplate).sourceOf
        (noteCopy "b")) ++ ["inner", "note.txt"]) = some (.file bytes) := by
      rw [hspot]
      exact hbytes
    have hsupplied := hall (noteRunner farTemplate) (noteCopy "b") deepFiles deepFiles_wellFormed
      rfl hfar (noteCopy_isLegal (by decide)) hapart hdirectory rfl _ bytes hnote
    obtain ⟨-, hrefusals, hkept⟩ := runOperation_deep "b"
    rcases hsupplied with ⟨-, hcopy⟩ | hrefusal
    · have hthere := hkept _ bytes hcopy
      rw [htaken] at hthere
      exact absurd (hnone.symm.trans hthere) (by simp)
    · rw [hrefusals] at hrefusal
      simp at hrefusal

end Runner

end Scaffold
