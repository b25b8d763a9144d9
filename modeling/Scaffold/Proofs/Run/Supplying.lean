import Scaffold.Proofs.FileSystem.Fresh
import Scaffold.Proofs.Run.Accounting

set_option autoImplicit false

/-! # Copies of directories into directories

A directory that is copied to a place where there is one already, by a runner that may not overwrite,
only adds to what is there. Each file that the walk comes to is copied, or it is passed over and
this is told exactly once: the errors of different names are about different targets. -/

namespace Scaffold

open FileSystem

/-- Whether the error tells that the source was not copied to the target. -/
def Error.isRefusalOf (source target : String) : Error → Bool
  | .copy first second _ => first == source && second == target
  | .targetExists second => second == target
  | _ => false

/-- How many errors of the report tell that the source was not copied to the target. -/
def Report.refusals (report : Report) (source target : String) : Nat :=
  report.skipped.countP (Error.isRefusalOf source target)

theorem Report.refusals_ofEvents_append (events later : List Event) (source target : String) :
    (Report.ofEvents (events ++ later)).refusals source target =
      (Report.ofEvents events).refusals source target +
        (Report.ofEvents later).refusals source target := by
  unfold refusals
  rw [ofEvents_append, merge]
  exact List.countP_append

/-- The file has been copied to the place, or it was passed over once. -/
def IsSupplied (bytes : ByteArray) (place : List String) (source target : String)
    (outcome : List Event × FileSystem) : Prop :=
  ((Report.ofEvents outcome.1).refusals source target = 0 ∧
      outcome.2.lookup place = some (.file bytes)) ∨
    (Report.ofEvents outcome.1).refusals source target = 1

/-- The walk from the source in `base` adds what it comes to below `top`, its errors are about
    targets at or below the target, and each file it comes to is supplied. -/
structure Supplies (base : FileSystem) (top : List String) (source target : String)
    (s : FileSystem) (outcome : List Event × FileSystem) : Prop where
  adds : AddsBelow top s outcome.2
  within : ∀ error ∈ (Report.ofEvents outcome.1).skipped, ∀ first second,
    error.isRefusalOf first second = true → ∃ rest, Extends target second rest
  file : ∀ names, base.Visits source names → ∀ bytes,
    base.lookup (base.spot source ++ names) = some (.file bytes) →
      IsSupplied bytes (base.spot target ++ names) (along source names) (along target names) outcome

/-- The same for some of the names in a directory. -/
structure SuppliesAll (base : FileSystem) (top : List String) (source target : String)
    (entries : List (String × Bool)) (s : FileSystem) (outcome : List Event × FileSystem) :
    Prop where
  adds : AddsBelow top s outcome.2
  within : ∀ error ∈ (Report.ofEvents outcome.1).skipped, ∀ first second,
    error.isRefusalOf first second = true →
      ∃ entry ∈ entries, ∃ rest, Extends target second (entry.1 :: rest)
  file : ∀ entry ∈ entries, ∀ names, base.Visits (Path.join source entry.1) names → ∀ bytes,
    base.lookup (base.spot source ++ entry.1 :: names) = some (.file bytes) →
      IsSupplied bytes (base.spot target ++ entry.1 :: names) (along source (entry.1 :: names))
        (along target (entry.1 :: names)) outcome

variable {base s t made : FileSystem} {source target name : String} {top place : List String}

/-! ## One name after the other -/

theorem names_eq_of_extends {root path : String} {names names' : List String}
    (h : Extends root path names) (h' : Extends root path names') : names = names' := by
  have hpieces := h.pieces_eq
  rw [h'.pieces_eq] at hpieces
  exact (List.append_cancel_left hpieces).symm

theorem isSupplied_append_of_eq_zero {bytes : ByteArray} {events : List Event}
    {outcome : List Event × FileSystem} (h : IsSupplied bytes place source target outcome)
    (hnone : (Report.ofEvents events).refusals source target = 0) :
    IsSupplied bytes place source target (events ++ outcome.1, outcome.2) := by
  unfold IsSupplied at h ⊢
  rwa [Report.refusals_ofEvents_append, hnone, Nat.zero_add]

/-- What has been supplied is so after something else was added. -/
theorem IsSupplied.append {bytes : ByteArray} {outcome later : List Event × FileSystem}
    (h : IsSupplied bytes place source target outcome)
    (hadds : AddsBelow top outcome.2 later.2)
    (hnone : (Report.ofEvents later.1).refusals source target = 0) :
    IsSupplied bytes place source target (outcome.1 ++ later.1, later.2) := by
  unfold IsSupplied at h ⊢
  rw [Report.refusals_ofEvents_append, hnone, Nat.add_zero]
  refine h.imp_left fun ⟨hzero, hfile⟩ => ⟨hzero, ?_⟩
  rw [hadds.kept _ (by simp [hfile]), hfile]

theorem suppliesAll_nil (base : FileSystem) (top : List String) (source target : String)
    (s : FileSystem) : SuppliesAll base top source target [] s ([], s) where
  adds := .refl top s
  within := fun _ herror => absurd herror List.not_mem_nil
  file := fun _ hentry => absurd hentry List.not_mem_nil

/-- The errors about one name are not about what stands under another. -/
theorem refusals_eq_zero {events : List Event} {names : List String}
    (hnames : ∀ other ∈ name :: names, IsName other)
    (hwithin : ∀ error ∈ (Report.ofEvents events).skipped, ∀ first second,
      error.isRefusalOf first second = true →
        ∃ other rest, other ≠ name ∧ Extends target second (other :: rest)) :
    (Report.ofEvents events).refusals (along source (name :: names)) (along target (name :: names)) =
      0 := by
  refine List.countP_eq_zero.2 fun error herror habout => ?_
  obtain ⟨other, rest, hother, hextends⟩ := hwithin error herror _ _ habout
  exact hother (List.cons.inj (names_eq_of_extends hextends (extends_along hnames target))).1

theorem Supplies.cons {step : Step} {steps : List Step} {isDirectory : Bool}
    {entries : List (String × Bool)} (hfs : base.WellFormed) (hname : IsName name)
    (hnew : name ∉ entries.map Prod.fst)
    (h : Supplies base top (Path.join source name) (Path.join target name) s (step s))
    (h' : SuppliesAll base top source target entries (step s).2 (Step.seq steps (step s).2)) :
    SuppliesAll base top source target ((name, isDirectory) :: entries) s
      (Step.seq (step :: steps) s) where
  adds := h.adds.trans h'.adds
  within := by
    intro error herror first second habout
    rw [Step.seq, Report.ofEvents_append, Report.merge] at herror
    rcases List.mem_append.1 herror with herror | herror
    · obtain ⟨rest, hextends⟩ := h.within error herror first second habout
      exact ⟨_, List.mem_cons_self, rest, ((Extends.refl target).join hname).trans hextends⟩
    · obtain ⟨entry, hentry, hextends⟩ := h'.within error herror first second habout
      exact ⟨entry, List.mem_cons_of_mem _ hentry, hextends⟩
  file := by
    intro entry hentry names hvisits bytes hfile
    have hthere : base.lookup (base.spot source ++ entry.1 :: names) ≠ none := by simp [hfile]
    have hnames : ∀ other ∈ entry.1 :: names, IsName other := fun other hother =>
      hfs.isName _ hthere other (List.mem_append_right _ hother)
    rcases List.mem_cons.1 hentry with rfl | hentry
    · have hfirst := h.file names hvisits bytes (by rwa [spot_join_append base source hname])
      rw [spot_join_append base target hname] at hfirst
      refine hfirst.append h'.adds (refusals_eq_zero hnames ?_)
      intro error herror first second habout
      obtain ⟨other, hother, rest, hextends⟩ := h'.within error herror first second habout
      exact ⟨other.1, rest, fun heq => hnew (heq ▸ List.mem_map_of_mem hother), hextends⟩
    · refine isSupplied_append_of_eq_zero (h'.file entry hentry names hvisits bytes hfile)
        (refusals_eq_zero hnames ?_)
      intro error herror first second habout
      obtain ⟨rest, hextends⟩ := h.within error herror first second habout
      exact ⟨name, rest, fun heq => hnew (heq ▸ List.mem_map_of_mem hentry),
        ((Extends.refl target).join hname).trans hextends⟩

/-- A walk from a directory comes to the directory itself, which is no file, and to what is in it. -/
theorem SuppliesAll.supplies {events : List Event} {entries : List (String × Bool)}
    {outcome : List Event × FileSystem} (hfs : base.WellFormed)
    (hlist : base.list source = .ok entries) (hadds : AddsBelow top s made)
    (hevents : ∀ first second, (Report.ofEvents events).refusals first second = 0)
    (h : SuppliesAll base top source target entries made outcome) :
    Supplies base top source target s (events ++ outcome.1, outcome.2) where
  adds := hadds.trans h.adds
  within := by
    intro error herror first second habout
    rw [Report.ofEvents_append, Report.merge] at herror
    rcases List.mem_append.1 herror with herror | herror
    · exact absurd habout (List.countP_eq_zero.1 (hevents first second) error herror)
    · obtain ⟨entry, -, rest, hextends⟩ := h.within error herror first second habout
      exact ⟨_, hextends⟩
  file := by
    intro names hvisits bytes hfile
    cases names with
    | nil =>
      have hdirectory := kind?_eq_directory_iff.1 (kind?_of_list hlist)
      rw [List.append_nil, hdirectory] at hfile
      simp at hfile
    | cons name rest =>
      have hthere : base.lookup (base.spot source ++ name :: rest) ≠ none := by simp [hfile]
      have hentry := (mem_entries_iff hlist).2
        ⟨lookup_ne_none_above (prefix_of_cons _ name rest) hthere, rfl⟩
      have hname := hfs.isName_of_list hlist hentry
      exact isSupplied_append_of_eq_zero
        (h.file _ hentry rest ((visits_cons_iff hname).1 hvisits).2 bytes hfile) (hevents _ _)

namespace Runner

variable {r : Runner} {origin root : String} {here before names : List String}

/-! ## One file -/

/-- There is nothing below a file. -/
theorem eq_nil_of_kind?_file (hkind : base.kind? place = some .file) {entry : Entry}
    (hentry : base.lookup (place ++ names) = some entry) : names = [] := by
  by_contra hne
  obtain ⟨bytes, hfile⟩ := kind?_eq_file_iff.1 hkind
  rw [lookup_append_eq_none hne (by simp [hfile])] at hentry
  simp at hentry

theorem supplies_refused {error : Error} (hkind : base.kind? (base.spot source) = some .file)
    (hadds : AddsBelow top s t) (habout : error.isRefusalOf source target = true)
    (hother : ∀ first second, error.isRefusalOf first second = true → second = target) :
    Supplies base top source target s ([.skipped error], t) where
  adds := hadds
  within := by
    intro other herror first second habout
    rw [List.mem_singleton.1 herror] at habout
    exact ⟨[], hother first second habout ▸ Extends.refl target⟩
  file := by
    intro names _ bytes hfile
    obtain rfl := eq_nil_of_kind?_file hkind hfile
    exact Or.inr (List.countP_cons_of_pos habout)

theorem supplies_copied (hkind : base.kind? (base.spot source) = some .file)
    (hadds : AddsBelow top s t)
    (hcopy : t.lookup (base.spot target) = base.lookup (base.spot source)) :
    Supplies base top source target s ([.copied target], t) where
  adds := hadds
  within := fun _ herror => absurd herror List.not_mem_nil
  file := by
    intro names _ bytes hfile
    obtain rfl := eq_nil_of_kind?_file hkind hfile
    rw [List.append_nil] at hfile ⊢
    exact Or.inl ⟨rfl, hcopy.trans hfile⟩

theorem isRefusalOf_targetExists (source target : String) :
    (Error.targetExists target).isRefusalOf source target = true ∧
      ∀ first second, (Error.targetExists target).isRefusalOf first second = true →
        second = target := by
  refine ⟨beq_self_eq_true target, fun first second habout => ?_⟩
  exact (beq_iff_eq.1 habout).symm

theorem isRefusalOf_copy (source target : String) (cause : Cause) :
    (Error.copy source target cause).isRefusalOf source target = true ∧
      ∀ first second, (Error.copy source target cause).isRefusalOf first second = true →
        second = target := by
  refine ⟨by simp [Error.isRefusalOf], fun first second habout => ?_⟩
  rw [Error.isRefusalOf, Bool.and_eq_true, beq_iff_eq, beq_iff_eq] at habout
  exact habout.2.symm

/-- Where a file can be opened by a path text by which nothing was found before the directories for
    it were made, there is nothing: what was there before would have been found. -/
theorem lookup_eq_none_of_opens (h : ExtendsToName root target names) (hroot : s.LeadsTo root top)
    (hadds : AddsDirectories top s made) (hopens : made.Opens target place)
    (hthere : s.isThere target = false) : made.lookup place = none := by
  cases hplace : made.lookup place with
  | none => rfl
  | some entry =>
    cases entry with
    | directory => exact absurd hplace hopens.lookup_ne_directory
    | file old =>
      have hfound := isThere_of_opens h hroot hadds hopens (hadds.file_iff.1 hplace)
      simp [hthere] at hfound

/-- A file is copied to a place where nothing is, or its copy is refused, and nothing that is there
    changes. -/
theorem supplies_copyBytes (hr : r.overwrite = false) (htemplate : base.LeadsTo origin here)
    (hroot : base.IsRoot root top) (hapart : LieApart top here)
    (hsource : Extends origin source before)
    (hkind : base.kind? (base.spot source) = some .file)
    (htarget : ExtendsToName root target names) (hs : GrowsBelow top base s) :
    Supplies base top source target s (r.copyBytes source target s) := by
  have hinside := (htarget.descends.staysInside hroot).of_growsBelow hs
  have hadds := hinside.addsDirectories_makeParent
  cases hthere : s.isThere target with
  | true =>
    rw [copyBytes_of_isThere hr hthere]
    obtain ⟨habout, hother⟩ := isRefusalOf_targetExists source target
    exact supplies_refused hkind (.refl top s) habout hother
  | false =>
    have hnot : (!r.overwrite && s.isThere target) = false := by rw [hthere, Bool.and_false]
    rcases hmade : s.makeParent target with ⟨cause | _, made⟩
    · rw [hmade] at hadds
      rw [copyBytes_of_makeParent_error hnot hmade]
      obtain ⟨habout, hother⟩ := isRefusalOf_copy source target cause
      exact supplies_refused hkind hadds.addsBelow habout hother
    rw [hmade] at hadds
    rcases copy_cases made source target with
      ⟨cause, hcopy⟩ | ⟨place, bytes, done, hopens, hbytes, hcopy, hwrites⟩
    · rw [copyBytes_of_copy_error hnot hmade hcopy]
      obtain ⟨habout, hother⟩ := isRefusalOf_copy source target cause
      exact supplies_refused hkind hadds.addsBelow habout hother
    · rw [copyBytes_of_ok hnot hmade hcopy]
      have hmadeGrows := hs.trans hadds.growsBelow
      have hon := hopens.below_of_staysInside (hinside.of_growsBelow hadds.growsBelow)
      have hput := (hopens.writes_put .empty).growsBelow hopens.lookup_ne_directory hon
      have hfree := lookup_eq_none_of_opens htarget (hroot.leadsTo.of_growsBelow hs) hadds hopens
        hthere
      refine supplies_copied hkind (hadds.addsBelow.trans (hwrites.addsBelow hfree hon)) ?_
      have hread := (read_of_lieApart hsource htemplate hapart (hmadeGrows.trans hput)).symm.trans
        hbytes
      obtain ⟨found, hfound, hfile⟩ := read_eq_ok_iff.1 hread
      obtain rfl : found = base.spot source := eq_spot_of_resolve hfound
      have hspot : place = base.spot target := by
        rw [hopens.eq_spot, spot_congr hmadeGrows.workDir]
      rw [← hspot, hwrites.lookup_self, hfile]

/-! ## Directories -/

/-- Making the copy of a directory tells of no file. -/
theorem refusals_makeCopy (s : FileSystem) (first second : String) :
    (Report.ofEvents (makeCopy target s).1).refusals first second = 0 := by
  rw [makeCopy_eq]
  rcases s.makeDirectories target with ⟨cause | _, made⟩
  · rfl
  · rfl

/-- Where each of the names is supplied, they are supplied one after the other. -/
theorem suppliesAll_entries (hfs : base.WellFormed) {entries : List (String × Bool)}
    {step : String × Bool → Step} (hnodup : (entries.map Prod.fst).Nodup)
    (hnames : ∀ entry ∈ entries, IsName entry.1)
    (hstep : ∀ entry ∈ entries, ∀ s, GrowsBelow top base s →
      Supplies base top (Path.join source entry.1) (Path.join target entry.1) s (step entry s))
    (hs : GrowsBelow top base s) :
    SuppliesAll base top source target entries s (Step.seq (entries.map step) s) := by
  induction entries generalizing s with
  | nil => exact suppliesAll_nil base top source target s
  | cons entry entries ih =>
    obtain ⟨hnew, hnodup⟩ := List.nodup_cons.1 hnodup
    have hfirst := hstep entry List.mem_cons_self s hs
    refine hfirst.cons hfs (hnames entry List.mem_cons_self) hnew (ih hnodup ?_ ?_ ?_)
    · exact fun other hother => hnames other (List.mem_cons_of_mem _ hother)
    · exact fun other hother => hstep other (List.mem_cons_of_mem _ hother)
    · exact hs.trans hfirst.adds.growsBelow

/-- A walk does not get past a directory that cannot be listed. -/
theorem supplies_unlisted (room : Nat) (hinside : s.StaysInside top target)
    (hkind : base.kind? (base.spot source) = some .directory) {cause : Cause}
    (hbase : base.list source = .error cause) (hlist : s.list source = .error cause) :
    Supplies base top source target s (r.copyDirectory room source target s) := by
  rw [copyDirectory_of_error room hlist]
  have hnone : ∀ first second, (Report.ofEvents (Step.seq [makeCopy target,
      Step.skip (.read source (.listing source cause))] s).1).refusals first second = 0 := by
    intro first second
    rw [Step.seq, Report.refusals_ofEvents_append, refusals_makeCopy]
    rfl
  refine ⟨?_, fun error herror first second habout => ?_, fun names hvisits bytes hfile => ?_⟩
  · have hmade := hinside.addsDirectories_makeDirectories.addsBelow
    rw [Step.seq, makeCopy_eq]
    exact hmade
  · exact absurd habout (List.countP_eq_zero.1 (hnone first second) error herror)
  · have hne : [] ≠ names := by
      rintro rfl
      rw [List.append_nil, kind?_eq_directory_iff.1 hkind] at hfile
      simp at hfile
    obtain ⟨entries, hok⟩ :=
      isDirectory_iff_exists_list.1 (hvisits.listed [] List.nil_prefix hne)
    have hok : base.list source = .ok entries := hok
    simp [hbase] at hok

/-- A directory is copied level by level, and every file that the walk comes to is supplied. -/
theorem supplies_copyDirectory (hr : r.overwrite = false) (hfs : base.WellFormed)
    (htemplate : base.LeadsTo origin here) (hroot : base.IsRoot root top)
    (hapart : LieApart top here) (room : Nat) (hsource : Extends origin source before)
    (htarget : Extends root target names)
    (hkind : base.kind? (base.spot source) = some .directory)
    (hroom : pathLimit ≤ room + source.utf8ByteSize) (hs : GrowsBelow top base s) :
    Supplies base top source target s (r.copyDirectory room source target s) := by
  induction room generalizing source target before names s with
  | zero =>
    have hinside := (htarget.descends.staysInside hroot).of_growsBelow hs
    have hlist := list_of_lieApart hsource htemplate hapart hs
    cases hbase : base.list source with
    | error cause => exact supplies_unlisted 0 hinside hkind hbase (hlist.trans hbase)
    | ok entries =>
      -- the path is too long to be listed
      obtain ⟨found, -, hresolve, -⟩ := exists_of_list hbase
      have hshort := (resolve_eq_ok_iff.1 hresolve).1.2.2
      omega
  | succ room ih =>
    have hinside := (htarget.descends.staysInside hroot).of_growsBelow hs
    have hlist := list_of_lieApart hsource htemplate hapart hs
    cases hbase : base.list source with
    | error cause => exact supplies_unlisted (room + 1) hinside hkind hbase (hlist.trans hbase)
    | ok entries =>
      rw [copyDirectory_succ room (hlist.trans hbase), Step.seq]
      have hadds : AddsBelow top s (makeCopy target s).2 := by
        rw [makeCopy_eq]
        exact hinside.addsDirectories_makeDirectories.addsBelow
      refine SuppliesAll.supplies hfs hbase hadds (refusals_makeCopy s) ?_
      refine suppliesAll_entries hfs (nodup_entries hbase)
        (fun entry hentry => hfs.isName_of_list hbase hentry) ?_ (hs.trans hadds.growsBelow)
      rintro ⟨name, isDirectory⟩ hentry u hu
      have hname := hfs.isName_of_list hbase hentry
      have hkind' := kind?_of_mem_entries hfs hbase hentry
      dsimp only
      cases isDirectory with
      | true =>
        have hlonger := lt_utf8ByteSize_join source hname
        rw [if_pos rfl]
        exact ih (hsource.join hname) (htarget.join hname) hkind' (by omega) hu
      | false =>
        rw [if_neg Bool.false_ne_true]
        exact supplies_copyBytes hr htemplate hroot hapart (hsource.join hname) hkind'
          (htarget.join_name hname) hu

end Runner

end Scaffold
