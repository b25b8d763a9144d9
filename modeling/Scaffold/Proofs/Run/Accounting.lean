import Scaffold.Proofs.FileSystem.Census
import Scaffold.Proofs.FileSystem.Lengths
import Scaffold.Proofs.Run.Items
import Scaffold.Proofs.Run.Operations

set_option autoImplicit false

/-! # Every item is accounted for

A step accounts for as many items as it tells of: each of them is counted as written or listed among
the errors. For a file that is copied or filtered this is one. For a directory it is one for each
file that the walk through it comes to, one for each directory whose copy could not be made, and one
for each directory that could not be listed (`share`). Whether the copy of a directory could be made
can be seen in the end: what could not be made cannot be there later. -/

namespace Scaffold

open FileSystem

namespace Report

/-- How many items the report tells of. -/
def total (report : Report) : Nat :=
  report.written + report.skipped.length

theorem total_ofEvents_append (events later : List Event) :
    (ofEvents (events ++ later)).total = (ofEvents events).total + (ofEvents later).total := by
  unfold total
  rw [ofEvents_append, merge, List.length_append]
  dsimp only
  omega

end Report

/-! ## Counting on the way -/

section

variable {base : FileSystem} {top : List String} {step step' : Step}
variable {number number' : FileSystem → Nat}

/-- From any growth of `base` below `top`, the step only grows the file system below `top`, and it
    accounts for so many items. The number may depend on what is there in the end. -/
def AccountsFor (base : FileSystem) (top : List String) (step : Step) (number : FileSystem → Nat) :
    Prop :=
  ∀ s, GrowsBelow top base s → GrowsBelow top s (step s).2 ∧
    ∀ done, GrowsBelow top (step s).2 done → (Report.ofEvents (step s).1).total = number done

theorem AccountsFor.congr (h : AccountsFor base top step' number)
    (heq : ∀ s, GrowsBelow top base s → step s = step' s) : AccountsFor base top step number := by
  intro s hs
  rw [heq s hs]
  exact h s hs

theorem AccountsFor.of_eq (h : AccountsFor base top step number')
    (heq : ∀ done, number done = number' done) : AccountsFor base top step number := by
  rwa [funext heq]

theorem accounts_tell (events : List Event) :
    AccountsFor base top (fun fs => (events, fs)) fun _ => (Report.ofEvents events).total :=
  fun s _ => ⟨.refl top s, fun _ _ => rfl⟩

theorem accounts_nil : AccountsFor base top (Step.seq []) fun _ => 0 :=
  accounts_tell []

theorem accounts_skip (error : Error) : AccountsFor base top (Step.skip error) fun _ => 1 :=
  accounts_tell [.skipped error]

/-- A step that settles and tells of one item whatever happens. -/
theorem Settles.accounts {overwrite : Bool} (h : Settles overwrite base top step)
    (hone : ∀ s, (Report.ofEvents (step s).1).total = 1) : AccountsFor base top step fun _ => 1 :=
  fun s hs => ⟨(h s hs).1, fun _ _ => hone s⟩

theorem AccountsFor.cons {steps : List Step} (h : AccountsFor base top step number)
    (h' : AccountsFor base top (Step.seq steps) number') :
    AccountsFor base top (Step.seq (step :: steps)) fun done => number done + number' done := by
  intro s hs
  obtain ⟨hgrows, htotal⟩ := h s hs
  obtain ⟨hgrows', htotal'⟩ := h' (step s).2 (hs.trans hgrows)
  refine ⟨hgrows.trans hgrows', fun done hdone => ?_⟩
  rw [Step.seq, Report.total_ofEvents_append, htotal done (hgrows'.trans hdone), htotal' done hdone]

theorem accounts_pair (h : AccountsFor base top step number)
    (h' : AccountsFor base top step' number') :
    AccountsFor base top (Step.seq [step, step']) fun done => number done + number' done := by
  have hlast := h'.cons accounts_nil
  exact h.cons hlast

/-- Steps one after the other account for the sum of what each of them accounts for. -/
theorem accounts_map {α : Type} {items : List α} {steps : α → Step}
    {numbers : α → FileSystem → Nat}
    (h : ∀ item ∈ items, AccountsFor base top (steps item) (numbers item)) :
    AccountsFor base top (Step.seq (items.map steps)) fun done =>
      (items.map fun item => numbers item done).sum := by
  induction items with
  | nil => exact accounts_nil
  | cons item items ih =>
    refine (h item List.mem_cons_self).cons (ih fun other hother => ?_)
    exact h other (List.mem_cons_of_mem _ hother)

end

namespace Runner

variable {r : Runner} {base : FileSystem} {origin : String} {here top : List String}
variable {source target name : String} {names before : List String}

/-! ## Single items -/

theorem total_copyBytes (r : Runner) (source target : String) (fs : FileSystem) :
    (Report.ofEvents (r.copyBytes source target fs).1).total = 1 := by
  rcases copyBytes_cases r source target fs with
    ⟨-, -, hrefused⟩ | ⟨-, ⟨cause, hskip⟩ | ⟨place, bytes, done, -, -, hcopy⟩⟩
  · rw [hrefused]
    rfl
  · rw [hskip]
    rfl
  · rw [hcopy]
    rfl

theorem total_putFile (target : String) (bytes : ByteArray) (fs : FileSystem) :
    (Report.ofEvents (putFile target bytes fs).1).total = 1 := by
  rcases putFile_cases target bytes fs with ⟨cause, hskip⟩ | ⟨place, -, hput⟩
  · rw [hskip]
    rfl
  · rw [hput]
    rfl

theorem total_filterFile (r : Runner) (source target : String) (fs : FileSystem) :
    (Report.ofEvents (r.filterFile source target fs).1).total = 1 := by
  cases hfile : fs.isFile source with
  | false =>
    rw [filterFile_of_not_isFile hfile]
    rfl
  | true =>
    cases hread : readSource fs source with
    | error cause =>
      rw [filterFile_of_error hfile hread]
      rfl
    | ok text =>
      rw [filterFile_of_text hfile hread]
      exact total_putFile target _ fs

theorem total_copyFile (r : Runner) (source target : String) (fs : FileSystem) :
    (Report.ofEvents (r.copyFile source target fs).1).total = 1 := by
  unfold copyFile
  split
  · exact total_copyBytes r source target fs
  · rfl

/-- The making of a directory is told of only if it fails, and then the directory is never there. -/
theorem accounts_makeCopy (h : r.Stage base origin here top)
    (htarget : Extends r.outputRoot target names) (hne : names ≠ []) :
    AccountsFor base top (makeCopy target) fun done =>
      if done.isDirectory target then 0 else 1 := by
  intro s hs
  refine ⟨(settles_makeCopy h htarget hne s hs).1, fun done hdone => ?_⟩
  have htext : target ≠ "" := htarget.ne_empty hne
  rw [makeCopy_eq] at hdone ⊢
  rcases hmade : s.makeDirectories target with ⟨cause | _, made⟩
  · rw [hmade] at hdone
    have hroot := h.output.of_growsBelow hs
    obtain ⟨cause', hagain⟩ :=
      exists_makeDirectories_of_error (htarget.liesAlong hne) hroot hmade hdone
    have hmissing : done.isDirectory target = false := by
      by_contra hthere
      rw [makeDirectories_of_isDirectory (Bool.not_eq_false _ ▸ hthere)] at hagain
      simp at hagain
    dsimp only
    rw [hmissing]
    rfl
  · rw [hmade] at hdone
    have hthere := isDirectory_of_growsBelow hdone (isDirectory_of_makeDirectories htext hmade)
    dsimp only
    rw [hthere]
    rfl

/-! ## Directories -/

/-- How many items the copying of a directory is: its files, its directories whose copy is no
    directory in the end, and its directories that cannot be listed. -/
noncomputable def subtreeShare (base : FileSystem) (source target : String) (done : FileSystem) :
    Nat :=
  base.filesBelow source +
    (base.directoriesBelow source fun names => !done.isDirectory (along target names)) +
    base.directoriesBelow source fun names => !base.isDirectory (along source names)

theorem subtreeShare_of_unlisted (hkind : base.kind? (base.spot source) = some .directory)
    (hsource : base.isDirectory source = false) (target : String) (done : FileSystem) :
    subtreeShare base source target done = (if done.isDirectory target then 0 else 1) + 1 := by
  unfold subtreeShare
  rw [filesBelow_of_leaf hkind hsource, directoriesBelow_of_leaf hkind hsource,
    directoriesBelow_of_leaf hkind hsource]
  cases hdone : done.isDirectory target <;> simp [along, hdone, hsource]

theorem subtreeShare_of_list (hfs : base.WellFormed) {entries : List (String × Bool)}
    (hlist : base.list source = .ok entries) (target : String) (done : FileSystem) :
    subtreeShare base source target done = (if done.isDirectory target then 0 else 1) +
      (entries.map fun entry => if entry.2 then
        subtreeShare base (Path.join source entry.1) (Path.join target entry.1) done else 1).sum := by
  have hsource : base.isDirectory source = true := isDirectory_iff_exists_list.2 ⟨entries, hlist⟩
  have hentries : ∀ entry ∈ entries,
      (if entry.2 then
        subtreeShare base (Path.join source entry.1) (Path.join target entry.1) done else 1) =
      base.filesBelow (Path.join source entry.1) +
        (base.directoriesBelow (Path.join source entry.1) fun names =>
          !done.isDirectory (along target (entry.1 :: names))) +
        base.directoriesBelow (Path.join source entry.1) fun names =>
          !base.isDirectory (along source (entry.1 :: names)) := by
    rintro ⟨name, isDirectory⟩ hentry
    cases isDirectory with
    | true => rfl
    | false =>
      have hkind : base.kind? (base.spot (Path.join source name)) = some .file :=
        kind?_of_mem_entries hfs hlist hentry
      have hleaf := isDirectory_of_kind?_file hkind
      rw [filesBelow_of_leaf hkind hleaf, directoriesBelow_of_leaf hkind hleaf,
        directoriesBelow_of_leaf hkind hleaf]
      simp
  rw [List.map_congr_left hentries, List.sum_map_add, List.sum_map_add]
  unfold subtreeShare
  rw [filesBelow_of_list hfs hlist, directoriesBelow_of_list hfs hlist,
    directoriesBelow_of_list hfs hlist]
  cases hdone : done.isDirectory target with
  | true => simp [along, hdone, hsource]
  | false =>
    simp [along, hdone, hsource]
    omega

/-- Where the walk comes to everything, all files and directories below the source are counted. -/
theorem subtreeShare_of_visitsAll (h : base.VisitsAll source) (target : String)
    (done : FileSystem) :
    subtreeShare base source target done =
      {names | base.kind? (base.spot source ++ names) = some .file}.ncard +
      {names | base.kind? (base.spot source ++ names) = some .directory ∧
        done.isDirectory (along target names) = false}.ncard +
      base.directoriesBelow source fun names => !base.isDirectory (along source names) := by
  unfold subtreeShare
  rw [filesBelow_eq_ncard h, directoriesBelow_eq_ncard h fun names =>
    !done.isDirectory (along target names)]
  simp only [Bool.not_eq_true']

/-- Where a directory cannot be listed, this is told after the making of its copy. -/
theorem accounts_unlisted (h : r.Stage base origin here top) (room : Nat)
    (hsource : Extends origin source before) (htarget : Extends r.outputRoot target names)
    (hne : names ≠ []) (hkind : base.kind? (base.spot source) = some .directory) {cause : Cause}
    (hbase : base.list source = .error cause) :
    AccountsFor base top (r.copyDirectory room source target)
      (subtreeShare base source target) := by
  have hlist : ∀ s, GrowsBelow top base s → s.list source = .error cause := fun s hs =>
    (list_of_lieApart hsource h.template h.apart hs).trans hbase
  have hleaf : base.isDirectory source = false := by
    by_contra hdirectory
    obtain ⟨entries, hok⟩ := isDirectory_iff_exists_list.1 (Bool.not_eq_false _ ▸ hdirectory)
    simp [hbase] at hok
  have hpair := accounts_pair (accounts_makeCopy h htarget hne)
    (accounts_skip (.read source (.listing source cause)))
  exact (hpair.congr fun s hs => copyDirectory_of_error room (hlist s hs)).of_eq
    (subtreeShare_of_unlisted hkind hleaf target)

/-- A directory is copied level by level. Each level makes the path of the source longer, so there is
    room for all that can be listed. -/
theorem accounts_copyDirectory (h : r.Stage base origin here top) (room : Nat)
    (hsource : Extends origin source before) (htarget : Extends r.outputRoot target names)
    (hne : names ≠ []) (hkind : base.kind? (base.spot source) = some .directory)
    (hroom : pathLimit ≤ room + source.utf8ByteSize) :
    AccountsFor base top (r.copyDirectory room source target)
      (subtreeShare base source target) := by
  induction room generalizing source target before names with
  | zero =>
    cases hbase : base.list source with
    | error cause => exact accounts_unlisted h 0 hsource htarget hne hkind hbase
    | ok entries =>
      -- the path is too long to be listed
      obtain ⟨place, -, hresolve, -⟩ := exists_of_list hbase
      have hshort := (resolve_eq_ok_iff.1 hresolve).1.2.2
      omega
  | succ room ih =>
    cases hbase : base.list source with
    | error cause => exact accounts_unlisted h (room + 1) hsource htarget hne hkind hbase
    | ok entries =>
      have hlist : ∀ s, GrowsBelow top base s → s.list source = .ok entries := fun s hs =>
        (list_of_lieApart hsource h.template h.apart hs).trans hbase
      refine .of_eq (.congr (.cons (accounts_makeCopy h htarget hne) (accounts_map ?_)) fun s hs =>
        copyDirectory_succ room (hlist s hs)) (subtreeShare_of_list h.wellFormed hbase target)
      rintro ⟨name, isDirectory⟩ hentry
      have hname := h.wellFormed.isName_of_list hbase hentry
      cases isDirectory with
      | true =>
        have hlonger := lt_utf8ByteSize_join source hname
        exact ih (hsource.join hname) (htarget.join hname) (by simp)
          (kind?_of_mem_entries h.wellFormed hbase hentry) (by omega)
      | false =>
        exact (settles_copyBytes h (hsource.join hname) (htarget.join_name hname)).accounts
          (total_copyBytes r _ _)

/-! ## Operations -/

/-- How many items an operation is: one, unless it copies a directory that is there. -/
noncomputable def share (r : Runner) (base done : FileSystem) (op : Operation) : Nat :=
  match op.kind with
  | .copySubtree =>
    if base.isDirectory (r.sourceOf op) then
      subtreeShare base (r.sourceOf op) (Path.join (r.targetOf op) "") done
    else 1
  | .copyFile | .filterFile => 1

theorem accounts_copySubtree (h : r.Stage base origin here top)
    (hsource : Extends origin source before) (htarget : Extends r.outputRoot target names)
    (hne : names ≠ []) :
    AccountsFor base top (r.copySubtree source target) fun done =>
      if base.isDirectory source then subtreeShare base source (Path.join target "") done else 1 := by
  have hdirectory : ∀ s, GrowsBelow top base s → s.isDirectory source = base.isDirectory source :=
    fun s hs => isDirectory_of_lieApart hsource h.template h.apart hs
  cases hbase : base.isDirectory source with
  | true =>
    obtain ⟨entries, hlist⟩ := isDirectory_iff_exists_list.1 hbase
    refine (accounts_copyDirectory h pathLimit hsource htarget.join_empty hne (kind?_of_list hlist)
      (Nat.le_add_right _ _)).congr fun s hs => ?_
    unfold copySubtree
    rw [hdirectory s hs, hbase, if_pos rfl]
  | false =>
    refine (accounts_skip (.sourceNotFound source)).congr fun s hs => ?_
    unfold copySubtree
    rw [hdirectory s hs, hbase, if_neg Bool.false_ne_true]
    rfl

theorem accounts_runOperation (h : r.Stage base origin here top) {op : Operation}
    (hop : op.IsNamed) :
    AccountsFor base top (r.runOperation op) fun done => r.share base done op := by
  obtain ⟨names, horigin⟩ := h.source
  have hsource := horigin.trans (extendsToName_below r.templateRoot hop.source).toExtends
  have htarget := extendsToName_below r.outputRoot hop.target
  have hwork : AccountsFor base top (r.work op) fun done => r.share base done op := by
    unfold work share
    cases hkind : op.kind with
    | copySubtree => exact accounts_copySubtree h hsource htarget.toExtends htarget.ne_nil
    | copyFile => exact (settles_copyFile h hsource htarget).accounts (total_copyFile r _ _)
    | filterFile => exact (settles_filterFile h hsource htarget).accounts (total_filterFile r _ _)
  exact (accounts_pair (accounts_tell [.started op]) hwork).of_eq fun done => (Nat.zero_add _).symm

/-- A run accounts for the shares of its operations. -/
theorem accounts_run (h : r.Stage base origin here top) {set : OperationSet}
    (hset : ∀ op ∈ set.operations, op.IsNamed) :
    AccountsFor base top (r.run set) fun done => (set.operations.map (r.share base done)).sum :=
  accounts_map fun op hop => accounts_runOperation h (hset op hop)

/-! ## What is passed over -/

/-- Bounds that admit every path. -/
def anywhere : Bounds where
  directory _ := True
  file _ := True
  source _ := True
  directory_join _ _ _ _ := trivial
  file_join _ _ _ _ := trivial
  source_join _ _ _ _ := trivial

theorem all_isItemError_makeCopy (target : String) (fs : FileSystem) :
    (Report.ofEvents (makeCopy target fs).1).skipped.all Error.isItemError = true := by
  unfold makeCopy
  split <;> rfl

theorem all_isItemError_copyBytes (r : Runner) (source target : String) (fs : FileSystem) :
    (Report.ofEvents (r.copyBytes source target fs).1).skipped.all Error.isItemError = true := by
  unfold copyBytes
  split
  · rfl
  · split
    · rfl
    · split <;> rfl

theorem all_isItemError_filterFile (r : Runner) (source target : String) (fs : FileSystem) :
    (Report.ofEvents (r.filterFile source target fs).1).skipped.all Error.isItemError = true := by
  unfold filterFile
  split
  · split
    · rfl
    · split
      · rfl
      · split <;> rfl
  · rfl

theorem all_isItemError_perform {bounds : Bounds} {item : Item} (h : item.IsWithin bounds)
    (r : Runner) (fs : FileSystem) :
    (Report.ofEvents (r.perform item fs).1).skipped.all Error.isItemError = true := by
  cases item with
  | start op => rfl
  | skip error =>
    have herror : error.isItemError = true := h
    simp [perform, Step.skip, Report.ofEvents, Event.error?, herror]
  | directory target => exact all_isItemError_makeCopy target fs
  | copy source target => exact all_isItemError_copyBytes r source target fs
  | filter source target => exact all_isItemError_filterFile r source target fs

theorem all_isItemError_append {events later : List Event}
    (h : (Report.ofEvents events).skipped.all Error.isItemError = true)
    (h' : (Report.ofEvents later).skipped.all Error.isItemError = true) :
    (Report.ofEvents (events ++ later)).skipped.all Error.isItemError = true := by
  rw [Report.ofEvents_append, Report.merge, List.all_append, h, h']
  rfl

theorem all_isItemError_performAll {bounds : Bounds} {items : List Item}
    (h : ∀ item ∈ items, item.IsWithin bounds) (r : Runner) (fs : FileSystem) :
    (Report.ofEvents (r.performAll items fs).1).skipped.all Error.isItemError = true := by
  induction items generalizing fs with
  | nil => rfl
  | cons item items ih =>
    rw [performAll_cons]
    exact all_isItemError_append (all_isItemError_perform (h item List.mem_cons_self) r fs)
      (ih (fun other hother => h other (List.mem_cons_of_mem _ hother)) _)

/-- A run passes things over by the errors of items only. -/
theorem all_isItemError_run (r : Runner) (set : OperationSet) {fs : FileSystem}
    (hfs : fs.WellFormed) :
    (Report.ofEvents (r.run set fs).1).skipped.all Error.isItemError = true := by
  have hitems : ∀ item ∈ r.items set fs, item.IsWithin anywhere :=
    isWithin_items (fun _ _ => ⟨trivial, trivial, trivial⟩) hfs
  rw [run_eq_performAll]
  exact all_isItemError_performAll hitems r fs

end Runner

end Scaffold
