import Scaffold.Proofs.Manifest.Segments
import Scaffold.Proofs.Run.Settling

set_option autoImplicit false

/-! # Operations settle

Every step of a run settles that reads below the template root and writes below the output root,
where these lie apart and all names on the way are proper. The sources stay what they are, so what
decides about a step is its target: a file that was put there can be put there again, and what could
not be put there cannot be put there later. -/

namespace Scaffold

open FileSystem

namespace Runner

/-- A runner at work: its output root leads to the directory `top`; its template root lies at or
    below the path text `origin`, which leads to a place that lies apart from `top`; and the file
    system holds everything under proper names. -/
structure Stage (r : Runner) (base : FileSystem) (origin : String) (here top : List String) :
    Prop where
  output : base.IsRoot r.outputRoot top
  template : base.LeadsTo origin here
  source : ∃ names, Extends origin r.templateRoot names
  apart : LieApart top here
  wellFormed : base.WellFormed

section

variable {r : Runner} {base : FileSystem} {origin : String} {here top : List String}
variable {source target name : String} {names before : List String}

/-! ## Making directories -/

theorem settles_makeCopy (h : r.Stage base origin here top)
    (htarget : Extends r.outputRoot target names) (hne : names ≠ []) :
    Settles r.overwrite base top (makeCopy target) := by
  intro s hs
  have hroot := h.output.of_growsBelow hs
  have hadds := addsDirectories_makeDirectories_below (htarget.liesAlong hne) hroot
  rcases hmade : s.makeDirectories target with ⟨cause | _, made⟩
  · rw [hmade] at hadds
    simp only [makeCopy_eq, hmade]
    refine ⟨hadds.growsBelow, fun t ht => ?_⟩
    obtain ⟨cause', hagain⟩ :=
      exists_makeDirectories_of_error (htarget.liesAlong hne) hroot hmade ht
    rw [hagain]
    exact .of_addsDirectories hadds (.skipped_skipped _ _ _)
  · rw [hmade] at hadds
    simp only [makeCopy_eq, hmade]
    refine ⟨hadds.growsBelow, fun t ht => ?_⟩
    rw [makeDirectories_of_ok hmade ht]
    exact .of_addsDirectories hadds (.of_eq _ rfl)

/-! ## Copying a file -/

/-- Where the copy is made, if it is made. -/
theorem copyBytes_of_ok {fs made done : FileSystem}
    (hthere : (!r.overwrite && fs.isThere target) = false)
    (hmade : fs.makeParent target = (.ok (), made))
    (hcopy : made.copy source target = (.ok (), done)) :
    r.copyBytes source target fs = ([.copied target], done) := by
  unfold copyBytes
  simp only [hthere, hmade, hcopy, Bool.false_eq_true, if_false]

theorem copyBytes_of_isThere {fs : FileSystem} (hr : r.overwrite = false)
    (hthere : fs.isThere target = true) :
    r.copyBytes source target fs = ([.skipped (.targetExists target)], fs) := by
  unfold copyBytes
  simp only [hr, hthere, Bool.not_false, Bool.and_self, if_true]

theorem copyBytes_of_makeParent_error {fs made : FileSystem} {cause : Cause}
    (hthere : (!r.overwrite && fs.isThere target) = false)
    (hmade : fs.makeParent target = (.error cause, made)) :
    r.copyBytes source target fs = ([.skipped (.copy source target cause)], made) := by
  unfold copyBytes
  simp only [hthere, hmade, Bool.false_eq_true, if_false]

theorem copyBytes_of_copy_error {fs made done : FileSystem} {cause : Cause}
    (hthere : (!r.overwrite && fs.isThere target) = false)
    (hmade : fs.makeParent target = (.ok (), made))
    (hcopy : made.copy source target = (.error cause, done)) :
    r.copyBytes source target fs = ([.skipped (.copy source target cause)], done) := by
  unfold copyBytes
  simp only [hthere, hmade, hcopy, Bool.false_eq_true, if_false]

/-- Whatever keeps a copy from being made, the copy is passed over. -/
theorem exists_copyBytes_eq_skipped {t : FileSystem}
    (h : (∃ cause, t.makeParent target = (.error cause, t)) ∨
      t.makeParent target = (.ok (), t) ∧ ∃ cause, t.copy source target = (.error cause, t)) :
    ∃ error, r.copyBytes source target t = ([.skipped error], t) := by
  cases hthere : !r.overwrite && t.isThere target with
  | true =>
    simp only [Bool.and_eq_true, Bool.not_eq_true'] at hthere
    exact ⟨_, copyBytes_of_isThere hthere.1 hthere.2⟩
  | false =>
    rcases h with ⟨cause, hparent⟩ | ⟨hparent, cause, hcopy⟩
    · exact ⟨_, copyBytes_of_makeParent_error hthere hparent⟩
    · exact ⟨_, copyBytes_of_copy_error hthere hparent hcopy⟩

/-- A copy that could be made to a place where a file stands can be made there again, and it brings
    the same bytes. -/
theorem exists_copy_again (h : r.Stage base origin here top)
    (hsource : Extends origin source names) {made t : FileSystem} {place : List String}
    {bytes : ByteArray} (hmade : GrowsBelow top base made)
    (hopens : made.Opens target place) (htop : top <+: place)
    (hbytes : (made.put place (.file .empty)).read source = .ok bytes)
    (ht : GrowsBelow top made t) {old : ByteArray} (hfile : t.lookup place = some (.file old)) :
    ∃ done, t.copy source target = (.ok (), done) ∧ Writes place bytes t done := by
  have hread : ∀ u, GrowsBelow top base u → u.read source = base.read source := fun u hu =>
    read_of_lieApart hsource h.template h.apart hu
  have hgrows : ∀ {u : FileSystem}, u.Opens target place →
      GrowsBelow top u (u.put place (.file .empty)) := fun hopens =>
    (hopens.writes_put .empty).growsBelow hopens.lookup_ne_directory htop
  have hresolve : t.resolve target = .ok (.found place) :=
    hopens.resolve_of_growsBelow ht (by simp [hfile])
  have hopens' : t.Opens target place := .file hresolve hfile
  rw [hread _ (hmade.trans (hgrows hopens))] at hbytes
  have hbytes' : t.read source = .ok bytes := (hread t (hmade.trans ht)).trans hbytes
  obtain ⟨bytes', done, hagain, hcopy, hwrites⟩ :=
    copy_of_opens hbytes' hopens' (write_of_file hresolve hfile .empty)
  rw [hread _ ((hmade.trans ht).trans (hgrows hopens')), hbytes] at hagain
  rw [← Except.ok.inj hagain] at hwrites
  exact ⟨done, hcopy, hwrites⟩

/-- A copy that was made is refused once more where it may not overwrite, and it is made once more
    where it may. -/
theorem settled_copyBytes (h : r.Stage base origin here top)
    (hsource : Extends origin source before) (htarget : ExtendsToName r.outputRoot target names)
    {s made done t : FileSystem} {place : List String} {bytes : ByteArray}
    (hs : GrowsBelow top base s)
    (hthere : (!r.overwrite && s.isThere target) = false)
    (hmade : s.makeParent target = (.ok (), made)) (hopens : made.Opens target place)
    (hbytes : (made.put place (.file .empty)).read source = .ok bytes)
    (hwrites : Writes place bytes made done) (ht : GrowsBelow top done t) :
    Settled r.overwrite s ([.copied target], done) t (r.copyBytes source target t) := by
  have hroot := h.output.of_growsBelow hs
  have hadds := addsDirectories_makeParent_below htarget.toExtends hroot
  rw [hmade] at hadds
  have hmadeRoot := hroot.of_growsBelow hadds.growsBelow
  have htop := hopens.below_of_extends htarget hmadeRoot.leadsTo
  have hdone := hwrites.growsBelow hopens.lookup_ne_directory htop
  obtain ⟨old, hfile, hresolve⟩ := hopens.exists_file_of_writes hwrites ht
  cases hr : r.overwrite with
  | false =>
    have hagain : t.isThere target = true := isThere_iff.2 ⟨place, hresolve, by simp [hfile]⟩
    rw [copyBytes_of_isThere hr hagain]
    refine .of_new_file hadds hwrites (fun old hold => ?_) ⟨rfl, rfl, rfl⟩
    -- otherwise the copy would not have been made
    rw [isThere_of_opens htarget hroot.leadsTo hadds hopens hold, hr] at hthere
    exact absurd hthere (by decide)
  | true =>
    obtain ⟨done', hcopy', hwrites'⟩ := exists_copy_again h hsource (hs.trans hadds.growsBelow)
      hopens htop hbytes (hdone.trans ht) hfile
    have hthere' : (!r.overwrite && t.isThere target) = false := by rw [hr]; rfl
    have hparent := makeParent_of_ok hmade (hdone.trans ht)
    rw [copyBytes_of_ok hthere' hparent hcopy']
    exact .of_same_file hadds hwrites hwrites' ⟨rfl, rfl, rfl⟩

theorem settles_copyBytes (h : r.Stage base origin here top)
    (hsource : Extends origin source before) (htarget : ExtendsToName r.outputRoot target names) :
    Settles r.overwrite base top (r.copyBytes source target) := by
  intro s hs
  have hroot := h.output.of_growsBelow hs
  cases hthere : !r.overwrite && s.isThere target with
  | true =>
    simp only [Bool.and_eq_true, Bool.not_eq_true'] at hthere
    rw [copyBytes_of_isThere hthere.1 hthere.2]
    refine ⟨.refl top s, fun t ht => ?_⟩
    rw [copyBytes_of_isThere hthere.1 (isThere_of_growsBelow ht hthere.2)]
    exact .of_addsDirectories (.refl top s) (.skipped_skipped _ _ _)
  | false =>
    have hadds := addsDirectories_makeParent_below htarget.toExtends hroot
    rcases hmade : s.makeParent target with ⟨cause | _, made⟩
    · rw [hmade] at hadds
      rw [copyBytes_of_makeParent_error hthere hmade]
      refine ⟨hadds.growsBelow, fun t ht => ?_⟩
      -- the directories cannot be made later either
      have hparent := exists_makeParent_of_error htarget.toExtends hroot hmade ht
      obtain ⟨error, hagain⟩ := exists_copyBytes_eq_skipped (Or.inl hparent)
      rw [hagain]
      exact .of_addsDirectories hadds (.skipped_skipped _ _ _)
    rw [hmade] at hadds
    have hbase := hs.trans hadds.growsBelow
    have hmadeRoot := hroot.of_growsBelow hadds.growsBelow
    rcases copy_cases made source target with
      ⟨cause, hcopy⟩ | ⟨place, bytes, done, hopens, hbytes, hcopy, hwrites⟩
    · rw [copyBytes_of_copy_error hthere hmade hcopy]
      refine ⟨hadds.growsBelow, fun t ht => ?_⟩
      -- the source is the same, and what stood in the way of the copy is there still
      have hread : t.read source = made.read source := by
        rw [read_of_lieApart hsource h.template h.apart (hbase.trans ht),
          read_of_lieApart hsource h.template h.apart hbase]
      have hfault := resolve_ne_notFound_of_makeParent htarget hroot hmade
      have hstart := hmadeRoot.lookup_start htarget.isAbsolute
      have hagain := exists_copy_of_growsBelow ht hcopy hread hfault (by simp [hstart])
      obtain ⟨error, hagain⟩ :=
        exists_copyBytes_eq_skipped (Or.inr ⟨makeParent_of_ok hmade ht, hagain⟩)
      rw [hagain]
      exact .of_addsDirectories hadds (.skipped_skipped _ _ _)
    · have htop := hopens.below_of_extends htarget hmadeRoot.leadsTo
      have hdone := hwrites.growsBelow hopens.lookup_ne_directory htop
      rw [copyBytes_of_ok hthere hmade hcopy]
      exact ⟨hadds.growsBelow.trans hdone, fun t ht =>
        settled_copyBytes h hsource htarget hs hthere hmade hopens hbytes hwrites ht⟩

theorem settles_copyFile (h : r.Stage base origin here top) (hsource : Extends origin source before)
    (htarget : ExtendsToName r.outputRoot target names) :
    Settles r.overwrite base top (r.copyFile source target) := by
  have hfile : ∀ s, GrowsBelow top base s → s.isFile source = base.isFile source := fun s hs =>
    isFile_of_lieApart hsource h.template h.apart hs
  cases hbase : base.isFile source with
  | true =>
    refine (settles_copyBytes h hsource htarget).congr fun s hs => ?_
    unfold copyFile
    rw [hfile s hs, hbase, if_pos rfl]
  | false =>
    refine (settles_skip (.sourceNotFound source)).congr fun s hs => ?_
    unfold copyFile
    rw [hfile s hs, hbase, if_neg Bool.false_ne_true]
    rfl

/-! ## Filtering a file -/

theorem settles_putFile (h : r.Stage base origin here top)
    (htarget : ExtendsToName r.outputRoot target names) (bytes : ByteArray) :
    Settles r.overwrite base top (putFile target bytes) := by
  intro s hs
  have hroot := h.output.of_growsBelow hs
  have hadds := addsDirectories_makeParent_below htarget.toExtends hroot
  unfold putFile
  rcases hmade : s.makeParent target with ⟨cause | _, made⟩
  · rw [hmade] at hadds
    refine ⟨hadds.growsBelow, fun t ht => ?_⟩
    obtain ⟨cause', hagain⟩ := exists_makeParent_of_error htarget.toExtends hroot hmade ht
    rw [hagain]
    exact .of_addsDirectories hadds (.skipped_skipped _ _ _)
  rw [hmade] at hadds
  have hmadeRoot := hroot.of_growsBelow hadds.growsBelow
  dsimp only
  rcases write_cases made target bytes with ⟨cause, hwrite⟩ | ⟨place, hopens, hwrite⟩
  · rw [hwrite]
    refine ⟨hadds.growsBelow, fun t ht => ?_⟩
    have hfault := resolve_ne_notFound_of_makeParent htarget hroot hmade
    have hstart := hmadeRoot.lookup_start htarget.isAbsolute
    obtain ⟨cause', hagain⟩ :=
      exists_write_of_growsBelow ht hwrite hfault (by simp [hstart]) bytes
    rw [makeParent_of_ok hmade ht]
    dsimp only
    rw [hagain]
    exact .of_addsDirectories hadds (.skipped_skipped _ _ _)
  · rw [hwrite]
    have hwrites := hopens.writes_put bytes
    have htop := hopens.below_of_extends htarget hmadeRoot.leadsTo
    have hdone := hwrites.growsBelow hopens.lookup_ne_directory htop
    refine ⟨hadds.growsBelow.trans hdone, fun t ht => ?_⟩
    -- another file may have been written there since, and it is replaced
    obtain ⟨old, hfile, hresolve⟩ := hopens.exists_file_of_writes hwrites ht
    have hopens' : t.Opens target place := .file hresolve hfile
    rw [makeParent_of_ok hmade (hdone.trans ht)]
    dsimp only
    rw [write_of_file hresolve hfile]
    exact .of_same_file hadds hwrites (hopens'.writes_put bytes) (.of_eq _ rfl)

theorem settles_filterFile (h : r.Stage base origin here top)
    (hsource : Extends origin source before) (htarget : ExtendsToName r.outputRoot target names) :
    Settles r.overwrite base top (r.filterFile source target) := by
  have hfile : ∀ s, GrowsBelow top base s → s.isFile source = base.isFile source := fun s hs =>
    isFile_of_lieApart hsource h.template h.apart hs
  have hread : ∀ s, GrowsBelow top base s → readSource s source = readSource base source := by
    intro s hs
    unfold readSource
    rw [read_of_lieApart hsource h.template h.apart hs]
  cases hbase : base.isFile source with
  | false =>
    exact (settles_skip _).congr fun s hs => filterFile_of_not_isFile ((hfile s hs).trans hbase)
  | true =>
    cases htext : readSource base source with
    | error cause =>
      exact (settles_skip _).congr fun s hs =>
        filterFile_of_error ((hfile s hs).trans hbase) ((hread s hs).trans htext)
    | ok text =>
      exact (settles_putFile h htarget _).congr fun s hs =>
        filterFile_of_text ((hfile s hs).trans hbase) ((hread s hs).trans htext)

/-! ## Copying a directory -/

theorem settles_makeCopy_skip (h : r.Stage base origin here top)
    (htarget : Extends r.outputRoot target names) (hne : names ≠ []) (error : Error) :
    Settles r.overwrite base top (Step.seq [makeCopy target, Step.skip error]) := by
  refine .seq fun step hstep => ?_
  simp only [List.mem_cons, List.not_mem_nil, or_false] at hstep
  rcases hstep with rfl | rfl
  · exact settles_makeCopy h htarget hne
  · exact settles_skip error

theorem settles_copyDirectory (h : r.Stage base origin here top) (room : Nat)
    (hsource : Extends origin source before) (htarget : Extends r.outputRoot target names)
    (hne : names ≠ []) : Settles r.overwrite base top (r.copyDirectory room source target) := by
  induction room generalizing source target before names with
  | zero =>
    have hlist : ∀ s, GrowsBelow top base s → s.list source = base.list source := fun s hs =>
      list_of_lieApart hsource h.template h.apart hs
    cases hbase : base.list source with
    | error cause =>
      exact (settles_makeCopy_skip h htarget hne _).congr fun s hs =>
        copyDirectory_of_error 0 ((hlist s hs).trans hbase)
    | ok entries =>
      exact (settles_makeCopy h htarget hne).congr fun s hs =>
        copyDirectory_zero ((hlist s hs).trans hbase)
  | succ room ih =>
    have hlist : ∀ s, GrowsBelow top base s → s.list source = base.list source := fun s hs =>
      list_of_lieApart hsource h.template h.apart hs
    cases hbase : base.list source with
    | error cause =>
      exact (settles_makeCopy_skip h htarget hne _).congr fun s hs =>
        copyDirectory_of_error (room + 1) ((hlist s hs).trans hbase)
    | ok entries =>
      refine Settles.congr (.seq fun step hstep => ?_) fun s hs =>
        copyDirectory_succ room ((hlist s hs).trans hbase)
      rcases List.mem_cons.1 hstep with rfl | hstep
      · exact settles_makeCopy h htarget hne
      · obtain ⟨name, ⟨hmem, rfl⟩ | ⟨hmem, rfl⟩⟩ := exists_of_mem_copyEntries hstep
        · have hname := h.wellFormed.isName_of_list hbase hmem
          exact ih (hsource.join hname) (htarget.join hname) (by simp)
        · have hname := h.wellFormed.isName_of_list hbase hmem
          exact settles_copyBytes h (hsource.join hname) (htarget.join_name hname)

theorem settles_copySubtree (h : r.Stage base origin here top)
    (hsource : Extends origin source before) (htarget : Extends r.outputRoot target names)
    (hne : names ≠ []) : Settles r.overwrite base top (r.copySubtree source target) := by
  have hdirectory : ∀ s, GrowsBelow top base s → s.isDirectory source = base.isDirectory source :=
    fun s hs => isDirectory_of_lieApart hsource h.template h.apart hs
  cases hbase : base.isDirectory source with
  | true =>
    refine (settles_copyDirectory h pathLimit hsource htarget.join_empty hne).congr
      fun s hs => ?_
    unfold copySubtree
    rw [hdirectory s hs, hbase, if_pos rfl]
  | false =>
    refine (settles_skip (.sourceNotFound source)).congr fun s hs => ?_
    unfold copySubtree
    rw [hdirectory s hs, hbase, if_neg Bool.false_ne_true]
    rfl

end

/-! ## Runs -/

theorem extendsToName_below (root : String) {spec : PathSpec} (h : spec.IsNamed) :
    ExtendsToName root (spec.below root) spec.segments := by
  obtain ⟨before, last, heq⟩ := List.eq_nil_or_concat spec.segments |>.resolve_left h.ne_nil
  rw [List.concat_eq_append] at heq
  have hname : ∀ segment ∈ before ++ [last], IsName segment := heq ▸ h.isName
  have hnames : ∀ segment ∈ (PathSpec.mk before).segments, IsName segment := fun segment hmem =>
    hname segment (List.mem_append_left _ hmem)
  have hlast := (extends_below root hnames).join_name (hname last (by simp))
  unfold PathSpec.below
  rw [heq, List.foldl_append]
  exact hlast

section

variable {r : Runner} {base : FileSystem} {origin : String} {here top : List String}

theorem settles_runOperation (h : r.Stage base origin here top) {op : Operation}
    (hop : op.IsNamed) : Settles r.overwrite base top (r.runOperation op) := by
  obtain ⟨names, horigin⟩ := h.source
  have hsource := horigin.trans (extendsToName_below r.templateRoot hop.source).toExtends
  have htarget := extendsToName_below r.outputRoot hop.target
  rw [runOperation_eq]
  refine .seq fun step hstep => ?_
  simp only [List.mem_cons, List.not_mem_nil, or_false] at hstep
  rcases hstep with rfl | rfl
  · exact settles_tell rfl
  · unfold work
    cases hkind : op.kind with
    | copySubtree => exact settles_copySubtree h hsource htarget.toExtends htarget.ne_nil
    | copyFile => exact settles_copyFile h hsource htarget
    | filterFile => exact settles_filterFile h hsource htarget

/-- A run of operations between paths of names settles. -/
theorem settles_run (h : r.Stage base origin here top) {set : OperationSet}
    (hset : ∀ op ∈ set.operations, op.IsNamed) : Settles r.overwrite base top (r.run set) := by
  refine .seq fun step hstep => ?_
  obtain ⟨op, hop, rfl⟩ := List.mem_map.1 hstep
  exact settles_runOperation h (hset op hop)

end

end Runner

end Scaffold
