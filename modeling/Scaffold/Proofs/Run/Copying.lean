import Scaffold.Proofs.FileSystem.Census
import Scaffold.Proofs.Run.Lockstep

set_option autoImplicit false

/-! # What a copy leaves

A copy empties its target before it reads its source. So a copy that was made leaves what the source
held in both of them, unless they are one file: then nothing is left in it (`run_copies`). Template
and output can be the same directory, and a path with a parent piece can lead back to its source
even where copies may not overwrite, so that files can be lost while they count as written.

When a copy comes up, its source is there or can never be read: it was looked at or listed before,
and what was listed stays. So the directories that are made for the target do not bring the source
into being. -/

namespace Scaffold

open FileSystem

namespace FileSystem

variable {s t : FileSystem} {top : List String} {path source target name : String}

/-! ## Paths that lead where they lead for good -/

/-- The path leads to something, or it fails for another reason than that something is missing. -/
structure IsFixed (fs : FileSystem) (path : String) : Prop where
  not_missing : fs.resolve path ≠ .error (.system .notFound)
  not_free : ∀ directory name, fs.resolve path ≠ .ok (.free directory name)

theorem IsFixed.resolve_eq (h : s.IsFixed path) (hgrows : GrowsBelow top s t) :
    t.resolve path = s.resolve path :=
  resolvePieces_of_growsBelow hgrows h.not_missing h.not_free

theorem IsFixed.of_growsBelow (h : s.IsFixed path) (hgrows : GrowsBelow top s t) :
    t.IsFixed path := by
  have heq := h.resolve_eq hgrows
  exact ⟨heq ▸ h.not_missing, heq ▸ h.not_free⟩

theorem isFixed_of_isFile {fs : FileSystem} (h : fs.isFile path = true) : fs.IsFixed path := by
  obtain ⟨bytes, hread⟩ := isFile_iff.1 h
  obtain ⟨place, hresolve, -⟩ := read_eq_ok_iff.1 hread
  exact ⟨by simp [hresolve], by simp [hresolve]⟩

/-- What was listed is found under its name, unless the path or the name is too long. -/
theorem isFixed_of_mem_entries {fs : FileSystem} (hfs : fs.WellFormed)
    {entries : List (String × Bool)} (hlist : fs.list path = .ok entries) {isDirectory : Bool}
    (hentry : (name, isDirectory) ∈ entries) : fs.IsFixed (Path.join path name) := by
  have hname := hfs.isName_of_list hlist hentry
  have hthere := ((mem_entries_iff hlist).1 hentry).1
  have hroot := isRoot_of_isDirectory (isDirectory_iff_exists_list.2 ⟨entries, hlist⟩)
  have hjoin := (Extends.refl path).join_name hname
  constructor
  · intro hmissing
    by_cases haccepts : Accepts (Path.join path name)
    · -- the directory was found, so what fails is the name alone
      unfold resolve at hmissing
      rw [resolvePieces_of_accepts haccepts, hjoin.strictPieces_eq, hjoin.pieces_eq,
        start_eq_start hjoin.isAbsolute, follow_append_of_found hroot.leadsTo] at hmissing
      cases hfollow : fs.follow (fs.spot path) [name] with
      | ok target => simp [hfollow] at hmissing
      | error fault =>
        simp only [List.nil_append, hfollow, Except.error.injEq, Cause.system.injEq] at hmissing
        rw [hmissing] at hfollow
        exact follow_singleton_ne_notFound hroot.directory name hfollow
    · obtain ⟨cause, hcause, hresolve⟩ := exists_resolvePieces_of_not_accepts haccepts
      have hne : Path.join path name ≠ "" := hjoin.ne_empty (by simp)
      exact hcause hne (Except.error.inj ((hresolve fs _).symm.trans hmissing))
  · intro directory other hfree
    have hspot := eq_spot_of_resolve hfree
    rw [spot_join fs path hname] at hspot
    have hmissing := (isFree_of_resolvePieces hfree).2.lookup_place
    rw [show directory ++ [other] = fs.spot path ++ [name] from hspot] at hmissing
    exact hthere hmissing

/-! ## One copy -/

/-- From `s` to `t` a file was copied: it can be found at both paths, unless they have become paths
    of one file, which is empty then. -/
inductive Copied (source target : String) (s t : FileSystem) : Prop
  | apart {bytes : ByteArray} (hbefore : s.read source = .ok bytes)
      (hne : t.resolve source ≠ t.resolve target) (hsource : t.read source = .ok bytes)
      (htarget : t.read target = .ok bytes)
  | emptied {bytes : ByteArray} (hbefore : s.read source = .ok bytes)
      (heq : t.resolve source = t.resolve target) (hsource : t.read source = .ok .empty)
      (htarget : t.read target = .ok .empty)

theorem copied_of_copy (h : s.copy source target = (.ok (), t)) : Copied source target s t := by
  cases hread : s.read source with
  | error cause =>
    rw [copy_of_read_error hread] at h
    simp at h
  | ok old =>
    rcases copy_cases s source target with
      ⟨cause, hcopy⟩ | ⟨place, bytes, done, hopens, hbytes, hcopy, hwrites⟩
    · rw [hcopy] at h
      simp at h
    rw [hcopy] at h
    obtain rfl : done = t := (Prod.mk.inj h).2
    obtain ⟨origin, horigin, hfile⟩ := read_eq_ok_iff.1 hread
    -- the paths lead where they led before, and the target is empty when the source is read
    have hopened := hopens.writes_put .empty
    have hgrows : ∀ {u : FileSystem} {content : ByteArray}, Writes place content s u →
        GrowsBelow [] s u := fun hu =>
      hu.growsBelow hopens.lookup_ne_directory List.nil_prefix
    have hsource := resolve_found_of_growsBelow (hgrows hwrites) horigin
    have htarget := hopens.resolve_of_growsBelow (hgrows hwrites) (by simp [hwrites.lookup_self])
    have hput := resolve_found_of_growsBelow (hgrows hopened) horigin
    have hafter := read_eq_ok_iff.2 ⟨place, htarget, hwrites.lookup_self⟩
    by_cases hsame : origin = place
    · subst hsame
      rw [read_eq_ok_iff.2 ⟨origin, hput, hopened.lookup_self⟩] at hbytes
      obtain rfl := Except.ok.inj hbytes
      refine .emptied hread (hsource.trans htarget.symm) ?_ hafter
      exact read_eq_ok_iff.2 ⟨origin, hsource, hwrites.lookup_self⟩
    · rw [read_eq_ok_iff.2 ⟨origin, hput, (hopened.lookup_of_ne hsame).trans hfile⟩] at hbytes
      obtain rfl := Except.ok.inj hbytes
      refine .apart hread (by simp [hsource, htarget, hsame]) ?_ hafter
      exact read_eq_ok_iff.2 ⟨origin, hsource, (hwrites.lookup_of_ne hsame).trans hfile⟩

/-- Directories that are made before do not matter to a copy of a file that is there already. -/
theorem Copied.of_addsDirectories {made : FileSystem} (hadds : AddsDirectories [] s made)
    (hfixed : s.IsFixed source) (h : Copied source target made t) : Copied source target s t := by
  have hread : ∀ {bytes}, made.read source = .ok bytes → s.read source = .ok bytes := by
    intro bytes hmade
    obtain ⟨place, hplace, hfile⟩ := read_eq_ok_iff.1 hmade
    rw [hfixed.resolve_eq hadds.growsBelow] at hplace
    exact read_eq_ok_iff.2 ⟨place, hplace, hadds.file_iff.1 hfile⟩
  cases h with
  | apart hbefore hne hsource htarget => exact .apart (hread hbefore) hne hsource htarget
  | emptied hbefore heq hsource htarget => exact .emptied (hread hbefore) heq hsource htarget

end FileSystem

namespace Runner

variable {r : Runner} {base fs : FileSystem} {source target : String}

/-! ## Copies that count as written -/

/-- A copy counts as written if the directories for it could be made and it could be made then. -/
theorem exists_copy_of_written
    (hwritten : (Report.ofEvents (r.copyBytes source target fs).1).written = 1) :
    ∃ made done, fs.makeParent target = (.ok (), made) ∧
      made.copy source target = (.ok (), done) ∧
      r.copyBytes source target fs = ([.copied target], done) := by
  have hskipped : ∀ error, (Report.ofEvents [.skipped error]).written ≠ 1 := fun _ =>
    Nat.zero_ne_one
  cases hthere : !r.overwrite && fs.isThere target with
  | true =>
    simp only [Bool.and_eq_true, Bool.not_eq_true'] at hthere
    rw [copyBytes_of_isThere hthere.1 hthere.2] at hwritten
    exact absurd hwritten (hskipped _)
  | false =>
    rcases hmade : fs.makeParent target with ⟨cause | _, made⟩
    · rw [copyBytes_of_makeParent_error hthere hmade] at hwritten
      exact absurd hwritten (hskipped _)
    rcases hcopy : made.copy source target with ⟨cause | _, done⟩
    · rw [copyBytes_of_copy_error hthere hmade hcopy] at hwritten
      exact absurd hwritten (hskipped _)
    exact ⟨made, done, rfl, hcopy, copyBytes_of_ok hthere hmade hcopy⟩

theorem copied_copyBytes (hfixed : fs.IsFixed source)
    (hwritten : (Report.ofEvents (r.copyBytes source target fs).1).written = 1) :
    Copied source target fs (r.copyBytes source target fs).2 := by
  obtain ⟨made, done, hmade, hcopy, heq⟩ := exists_copy_of_written hwritten
  have hadds := addsDirectories_makeParent fs target
  rw [hmade] at hadds
  rw [heq]
  exact (copied_of_copy hcopy).of_addsDirectories hadds hfixed

/-! ## Sources that are there -/

/-- When a copy of the script comes up in what has grown from `base`, its source is where it will
    be. -/
def FixesSources (r : Runner) (base : FileSystem) (script : Script) : Prop :=
  ∀ fs, GrowsWell base fs → ∀ source target before,
    (.copy source target, before) ∈ r.meetings (script fs) fs → before.IsFixed source

theorem fixesSources_of_not_copy {items : List Item}
    (h : ∀ source target, .copy source target ∉ items) :
    r.FixesSources base fun _ => items :=
  fun _ _ source target _ hmeeting => absurd (fst_mem_of_mem_meetings hmeeting) (h source target)

theorem fixesSources_copy (h : base.IsFixed source) (target : String) :
    r.FixesSources base fun _ => [.copy source target] := by
  intro fs hgrows source' target' before hmeeting
  obtain ⟨heq, rfl⟩ := Prod.mk.inj (List.mem_singleton.1 hmeeting)
  obtain ⟨rfl, -⟩ := Item.copy.inj heq
  exact h.of_growsBelow hgrows.grows

theorem fixesSources_gather {scripts : List Script}
    (h : ∀ script ∈ scripts, r.FixesSources base script) :
    r.FixesSources base (r.gather scripts) := by
  induction scripts with
  | nil => exact fixesSources_of_not_copy fun _ _ => List.not_mem_nil
  | cons script scripts ih =>
    intro fs hgrows source target before hmeeting
    rw [gather, meetings_append] at hmeeting
    rcases List.mem_append.1 hmeeting with hmeeting | hmeeting
    · exact h script List.mem_cons_self fs hgrows source target before hmeeting
    · have hrest := ih fun other hother => h other (List.mem_cons_of_mem _ hother)
      have hnext := hgrows.trans (growsWell_performAll r (script fs) fs)
      exact hrest _ hnext source target before hmeeting

theorem fixesSources_directoryItems (hbase : base.WellFormed) (room : Nat)
    (source target : String) : r.FixesSources base (r.directoryItems room source target) := by
  induction room generalizing base source target with
  | zero =>
    intro fs hgrows
    cases hlist : fs.list source with
    | error cause =>
      rw [directoryItems_of_error 0 hlist]
      exact fixesSources_of_not_copy (by simp) fs hgrows
    | ok entries =>
      rw [directoryItems_zero hlist]
      exact fixesSources_of_not_copy (by simp) fs hgrows
  | succ room ih =>
    intro fs hgrows
    have hfs := hgrows.wellFormed hbase
    cases hlist : fs.list source with
    | error cause =>
      rw [directoryItems_of_error (room + 1) hlist]
      exact fixesSources_of_not_copy (by simp) fs hgrows
    | ok entries =>
      rw [directoryItems_succ room hlist]
      refine fixesSources_gather (fun script hscript => ?_) fs (.refl fs)
      rcases List.mem_cons.1 hscript with rfl | hscript
      · exact fixesSources_of_not_copy (by simp)
      obtain ⟨⟨name, isDirectory⟩, hentry, rfl⟩ := List.mem_map.1 hscript
      cases isDirectory with
      | true => exact ih hfs _ _
      | false => exact fixesSources_copy (isFixed_of_mem_entries hfs hlist hentry) _

theorem fixesSources_operationItems (hbase : base.WellFormed) (op : Operation) :
    r.FixesSources base (r.operationItems op) := by
  intro fs hgrows source target before hmeeting
  have hfs := hgrows.wellFormed hbase
  obtain ⟨items, heq, hitems⟩ := operationItems_cases r op fs
  rw [heq] at hmeeting
  -- nothing has happened yet when the operation has been told of
  have hrest : (.copy source target, before) ∈ r.meetings items fs :=
    (List.mem_cons.1 hmeeting).resolve_left (by simp)
  rcases hitems with rfl | ⟨hfile, rfl⟩ | rfl | rfl
  · exact fixesSources_of_not_copy (by simp) fs (.refl fs) _ _ _ hrest
  · exact fixesSources_copy (isFixed_of_isFile hfile) _ fs (.refl fs) _ _ _ hrest
  · exact fixesSources_directoryItems hfs pathLimit _ _ fs (.refl fs) _ _ _ hrest
  · exact fixesSources_of_not_copy (by simp) fs (.refl fs) _ _ _ hrest

theorem fixesSources_items (hbase : base.WellFormed) (set : OperationSet) :
    r.FixesSources base (r.items set) := by
  refine fixesSources_gather fun script hscript => ?_
  obtain ⟨op, -, rfl⟩ := List.mem_map.1 hscript
  exact fixesSources_operationItems hbase op

/-! ## Copies of a run -/

/-- A copy of a run that counts as written leaves what the source held right before it in the target
    and in the source, unless the two are one file: that is empty then. -/
theorem run_copies {set : OperationSet} {before : FileSystem} (hfs : fs.WellFormed)
    (hmeeting : (.copy source target, before) ∈ r.meetings (r.items set fs) fs)
    (hwritten : (Report.ofEvents (r.perform (.copy source target) before).1).written = 1) :
    Copied source target before (r.perform (.copy source target) before).2 :=
  copied_copyBytes (fixesSources_items hfs set fs (.refl fs) source target before hmeeting) hwritten

/-! ## A template that is copied into itself -/

/-- A directory with the file `a.txt`. -/
def ownFiles : FileSystem :=
  let fs := ((FileSystem.mk [] []).makeDirectories "tpl").2
  (fs.write "tpl/a.txt" "text".toUTF8).2

/-- Copies the file to a name in its directory. -/
def ownSet (name : String) : OperationSet :=
  ⟨[], [⟨⟨["a.txt"]⟩, ⟨[name]⟩⟩], []⟩

/-- The directory is template and output at once, and copies may overwrite. -/
def ownRunner : Runner :=
  ⟨id, "tpl", "tpl", true⟩

theorem ownFiles_wellFormed : ownFiles.WellFormed := by
  unfold ownFiles
  exact wellFormed_write (wellFormed_makeDirectories wellFormed_empty "tpl") _ _

/-- The items of both runs. -/
theorem ownRunner_items :
    ownRunner.items (ownSet "b.txt") ownFiles =
        [.start ⟨.copyFile, ⟨⟨["a.txt"]⟩, ⟨["b.txt"]⟩⟩⟩, .copy "tpl/a.txt" "tpl/b.txt"] ∧
      ownRunner.items (ownSet "a.txt") ownFiles =
        [.start ⟨.copyFile, ⟨⟨["a.txt"]⟩, ⟨["a.txt"]⟩⟩⟩, .copy "tpl/a.txt" "tpl/a.txt"] := by
  decide +kernel

theorem ownRunner_meets {name target : String} {op : Operation}
    (h : ownRunner.items (ownSet name) ownFiles = [.start op, .copy "tpl/a.txt" target]) :
    (.copy "tpl/a.txt" target, ownFiles) ∈
      ownRunner.meetings (ownRunner.items (ownSet name) ownFiles) ownFiles := by
  rw [h]
  exact List.mem_cons_of_mem _ List.mem_cons_self

theorem ownRunner_written :
    (Report.ofEvents (ownRunner.perform (.copy "tpl/a.txt" "tpl/b.txt") ownFiles).1).written = 1 ∧
      (Report.ofEvents
        (ownRunner.perform (.copy "tpl/a.txt" "tpl/a.txt") ownFiles).1).written = 1 := by
  decide +kernel

/-- One copy to another file, and one to the file itself. -/
theorem run_copies_own : ownFiles.WellFormed ∧
    (.copy "tpl/a.txt" "tpl/b.txt", ownFiles) ∈
      ownRunner.meetings (ownRunner.items (ownSet "b.txt") ownFiles) ownFiles ∧
    (.copy "tpl/a.txt" "tpl/a.txt", ownFiles) ∈
      ownRunner.meetings (ownRunner.items (ownSet "a.txt") ownFiles) ownFiles ∧
    (Report.ofEvents (ownRunner.perform (.copy "tpl/a.txt" "tpl/b.txt") ownFiles).1).written = 1 ∧
    (Report.ofEvents (ownRunner.perform (.copy "tpl/a.txt" "tpl/a.txt") ownFiles).1).written = 1 ∧
    Copied "tpl/a.txt" "tpl/b.txt" ownFiles
      (ownRunner.perform (.copy "tpl/a.txt" "tpl/b.txt") ownFiles).2 ∧
    Copied "tpl/a.txt" "tpl/a.txt" ownFiles
      (ownRunner.perform (.copy "tpl/a.txt" "tpl/a.txt") ownFiles).2 := by
  have hother := ownRunner_meets ownRunner_items.1
  have hitself := ownRunner_meets ownRunner_items.2
  exact ⟨ownFiles_wellFormed, hother, hitself, ownRunner_written.1, ownRunner_written.2,
    run_copies ownFiles_wellFormed hother ownRunner_written.1,
    run_copies ownFiles_wellFormed hitself ownRunner_written.2⟩

/-- What the file holds can be lost by a copy that counts as written. -/
theorem exists_run_copies_nothing : ¬ ∀ (r : Runner) (set : OperationSet) (fs : FileSystem)
    (source target : String) (before : FileSystem), fs.WellFormed →
      (.copy source target, before) ∈ r.meetings (r.items set fs) fs →
      (Report.ofEvents (r.perform (.copy source target) before).1).written = 1 →
      ∃ bytes, before.read source = .ok bytes ∧
        (r.perform (.copy source target) before).2.read target = .ok bytes ∧
        (r.perform (.copy source target) before).2.read source = .ok bytes := by
  intro hkeeps
  obtain ⟨bytes, hbefore, hafter, -⟩ := hkeeps ownRunner (ownSet "a.txt") ownFiles _ _ ownFiles
    ownFiles_wellFormed (ownRunner_meets ownRunner_items.2) ownRunner_written.2
  have hheld : ownFiles.read "tpl/a.txt" = .ok "text".toUTF8 := by
    decide +kernel
  have hempty : (ownRunner.perform (.copy "tpl/a.txt" "tpl/a.txt") ownFiles).2.read "tpl/a.txt" =
      .ok .empty := by
    decide +kernel
  rw [hheld] at hbefore
  rw [hempty, ← hbefore] at hafter
  exact absurd hafter (by decide +kernel)

end Runner

end Scaffold
