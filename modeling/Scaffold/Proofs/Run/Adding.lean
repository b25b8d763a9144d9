import Mathlib.Data.Set.Card
import Scaffold.Proofs.Run.Filtering
import Scaffold.Proofs.Run.Keeping
import Scaffold.Proofs.Run.Overwriting

set_option autoImplicit false

/-! # Runs that only add

A run of copies between paths of names that may not overwrite leaves everything as it was and adds
to it: as many files as it says to have written. Where several copies go to one place, the first of
them that can be made is made there, and from then on the place is taken (`run_adds`).

A target is looked at before the directories for it are made. So this holds as long as the output
root leads to the files that are there below it: where it takes a detour through a directory that is
missing, no file is seen, and the first copy makes the directory and replaces the file
(`exists_run_replaces`). -/

namespace Scaffold

open FileSystem

namespace Runner

variable {r : Runner} {s t u : FileSystem} {source target : String} {place : List String}

/-! ## Copies that could be made -/

/-- The source could be copied to the target, allowed or not, and its copy would be at the place. -/
def CanCopy (fs : FileSystem) (source target : String) (place : List String) : Prop :=
  ∃ made done, fs.makeParent target = (.ok (), made) ∧ made.copy source target = (.ok (), done) ∧
    done.resolve target = .ok (.found place)

/-- The item is a copy that could be made to the place when it comes up. -/
def CanFill (place : List String) : Item × FileSystem → Prop
  | (.copy source target, fs) => CanCopy fs source target place
  | _ => False

/-- The first item that can fill the place is a copy from the source. -/
def FirstFill (place : List String) (meetings : List (Item × FileSystem)) (source : String) :
    Prop :=
  ∃ earlier target before later, meetings = earlier ++ (.copy source target, before) :: later ∧
    CanCopy before source target place ∧ ∀ meeting ∈ earlier, ¬ CanFill place meeting

theorem FirstFill.append_right {meetings : List (Item × FileSystem)}
    (h : FirstFill place meetings source) (more : List (Item × FileSystem)) :
    FirstFill place (meetings ++ more) source := by
  obtain ⟨earlier, target, before, later, rfl, hcan, hearlier⟩ := h
  exact ⟨earlier, target, before, later ++ more, by simp, hcan, hearlier⟩

theorem FirstFill.append_left {meetings more : List (Item × FileSystem)}
    (h : FirstFill place more source) (hbefore : ∀ meeting ∈ meetings, ¬ CanFill place meeting) :
    FirstFill place (meetings ++ more) source := by
  obtain ⟨earlier, target, before, later, rfl, hcan, hearlier⟩ := h
  refine ⟨meetings ++ earlier, target, before, later, by simp, hcan, fun meeting hmeeting => ?_⟩
  rcases List.mem_append.1 hmeeting with hmeeting | hmeeting
  · exact hbefore meeting hmeeting
  · exact hearlier meeting hmeeting

theorem FirstFill.mem {meetings : List (Item × FileSystem)}
    (h : FirstFill place meetings source) :
    ∃ target before, (.copy source target, before) ∈ meetings := by
  obtain ⟨earlier, target, before, later, rfl, -⟩ := h
  exact ⟨target, before, by simp⟩

/-- What is at the target is in the way of the copy. -/
theorem CanCopy.lookup_ne_none (h : CanCopy s source target place)
    (hthere : s.isThere target = true) : s.lookup place ≠ none := by
  obtain ⟨made, done, hmade, hcopy, hresolve⟩ := h
  obtain ⟨found, hfound, hentry⟩ := isThere_iff.1 hthere
  have hgrows : GrowsBelow [] s done := by
    have hmake := (addsDirectories_makeParent s target).growsBelow
    rw [hmade] at hmake
    rcases copy_cases made source target with
      ⟨cause, hfails⟩ | ⟨opened, bytes, copied, hopens, -, hcopied, hwrites⟩
    · rw [hcopy] at hfails
      simp at hfails
    · rw [hcopy] at hcopied
      obtain rfl := (Prod.mk.inj hcopied).2
      exact hmake.trans (hwrites.growsBelow hopens.lookup_ne_directory List.nil_prefix)
  rw [resolve_found_of_growsBelow hgrows hfound] at hresolve
  obtain rfl : found = place := by simpa using hresolve
  exact hentry

/-- A copy is made to where its target leads then. -/
theorem canCopy_iff {made done : FileSystem} (hmade : s.makeParent target = (.ok (), made))
    (hcopy : made.copy source target = (.ok (), done)) :
    CanCopy s source target place ↔ done.resolve target = .ok (.found place) := by
  constructor
  · rintro ⟨made', done', hmade', hcopy', hresolve⟩
    rw [hmade] at hmade'
    obtain rfl := (Prod.mk.inj hmade').2
    rw [hcopy] at hcopy'
    obtain rfl := (Prod.mk.inj hcopy').2
    exact hresolve
  · exact fun hresolve => ⟨made, done, hmade, hcopy, hresolve⟩

theorem not_canCopy_of_makeParent_error {made : FileSystem} {cause : Cause}
    (hmade : s.makeParent target = (.error cause, made)) : ¬ CanCopy s source target place := by
  rintro ⟨made', done, hmade', -⟩
  simp [hmade] at hmade'

theorem not_canCopy_of_copy_error {made done : FileSystem} {cause : Cause}
    (hmade : s.makeParent target = (.ok (), made))
    (hcopy : made.copy source target = (.error cause, done)) :
    ¬ CanCopy s source target place := by
  rintro ⟨made', done', hmade', hcopy', -⟩
  rw [hmade] at hmade'
  obtain rfl := (Prod.mk.inj hmade').2
  simp [hcopy] at hcopy'

/-! ## What is added -/

/-- There is a file at the place where nothing was before. -/
def IsNewFile (s t : FileSystem) (place : List String) : Prop :=
  s.lookup place = none ∧ ∃ bytes, t.lookup place = some (.file bytes)

/-- What came of the items that met the file systems, beginning with `s`: nothing is changed, as
    many files are new as were written, and each new file is that of the first item that could fill
    its place. What could be filled is filled. -/
structure Adds (s : FileSystem) (meetings : List (Item × FileSystem))
    (outcome : List Event × FileSystem) : Prop where
  adds : AddsBelow [] s outcome.2
  written : {place | IsNewFile s outcome.2 place}.encard = (Report.ofEvents outcome.1).written
  filled : ∀ meeting ∈ meetings, ∀ place, CanFill place meeting → outcome.2.lookup place ≠ none
  first : ∀ place bytes, s.lookup place = none → outcome.2.lookup place = some (.file bytes) →
    ∃ source, FirstFill place meetings source ∧ s.read source = .ok bytes

/-- What is new in the end became new in one of two steps. -/
theorem isNewFile_trans_iff (h : AddsBelow [] s t) (h' : AddsBelow [] t u) :
    IsNewFile s u place ↔ IsNewFile s t place ∨ IsNewFile t u place := by
  constructor
  · rintro ⟨hnone, bytes, hfile⟩
    by_cases ht : t.lookup place = none
    · exact Or.inr ⟨ht, bytes, hfile⟩
    · exact Or.inl ⟨hnone, bytes, (h'.kept place ht).symm.trans hfile⟩
  · rintro (⟨hnone, bytes, hfile⟩ | ⟨hnone, hfile⟩)
    · exact ⟨hnone, bytes, (h'.kept place (by simp [hfile])).trans hfile⟩
    · refine ⟨?_, hfile⟩
      by_contra hs
      rw [h.kept place hs] at hnone
      exact hs hnone

theorem Adds.append {meetings more : List (Item × FileSystem)}
    {outcome later : List Event × FileSystem}
    (h : Adds s meetings outcome) (h' : Adds outcome.2 more later)
    (hread : ∀ source target before, (.copy source target, before) ∈ more →
      ∀ bytes, outcome.2.read source = .ok bytes → s.read source = .ok bytes) :
    Adds s (meetings ++ more) (outcome.1 ++ later.1, later.2) where
  adds := h.adds.trans h'.adds
  written := by
    have hunion : {place | IsNewFile s later.2 place} =
        {place | IsNewFile s outcome.2 place} ∪ {place | IsNewFile outcome.2 later.2 place} :=
      Set.ext fun place => isNewFile_trans_iff h.adds h'.adds
    have hdisjoint : Disjoint {place | IsNewFile s outcome.2 place}
        {place | IsNewFile outcome.2 later.2 place} := by
      refine Set.disjoint_left.2 ?_
      rintro place ⟨-, bytes, hfile⟩ ⟨hnone, -⟩
      rw [hfile] at hnone
      simp at hnone
    rw [hunion, Set.encard_union_eq hdisjoint, h.written, h'.written, Report.ofEvents_append]
    exact (Nat.cast_add _ _).symm
  filled := by
    intro meeting hmeeting place hfill
    rcases List.mem_append.1 hmeeting with hmeeting | hmeeting
    · have hfilled := h.filled meeting hmeeting place hfill
      rw [h'.adds.kept place hfilled]
      exact hfilled
    · exact h'.filled meeting hmeeting place hfill
  first := by
    intro place bytes hnone hfile
    by_cases hbetween : outcome.2.lookup place = none
    · obtain ⟨source, hfirst, hsource⟩ := h'.first place bytes hbetween hfile
      obtain ⟨target, before, hmem⟩ := hfirst.mem
      refine ⟨source, hfirst.append_left fun meeting hmeeting hfill => ?_,
        hread source target before hmem bytes hsource⟩
      exact h.filled meeting hmeeting place hfill hbetween
    · rw [h'.adds.kept place hbetween] at hfile
      obtain ⟨source, hfirst, hsource⟩ := h.first place bytes hnone hfile
      exact ⟨source, hfirst.append_right more, hsource⟩

/-- Nothing but directories was added, and nothing could be filled that is not. -/
theorem Adds.of_addsDirectories {meetings : List (Item × FileSystem)} {events : List Event}
    (h : AddsDirectories [] s t) (hevents : (Report.ofEvents events).written = 0)
    (hfilled : ∀ meeting ∈ meetings, ∀ place, CanFill place meeting → t.lookup place ≠ none) :
    Adds s meetings (events, t) := by
  have hold : ∀ place bytes, s.lookup place = none → t.lookup place ≠ some (.file bytes) := by
    intro place bytes hnone hfile
    rw [h.file_iff.1 hfile] at hnone
    simp at hnone
  refine ⟨h.addsBelow, ?_, hfilled, fun place bytes hnone hfile => ?_⟩
  · rw [hevents, Nat.cast_zero, Set.encard_eq_zero, Set.eq_empty_iff_forall_notMem]
    rintro place ⟨hnone, bytes, hfile⟩
    exact hold place bytes hnone hfile
  · exact absurd hfile (hold place bytes hnone)

/-- A file was written where nothing was. -/
theorem Adds.of_writes {meetings : List (Item × FileSystem)} {events : List Event}
    {bytes : ByteArray} (hadds : AddsDirectories [] s t) (hopens : t.Opens target place)
    (hwrites : Writes place bytes t u) (hnone : s.lookup place = none)
    (hevents : (Report.ofEvents events).written = 1)
    (hfilled : ∀ meeting ∈ meetings, ∀ other, CanFill other meeting → other = place)
    (hfirst : FirstFill place meetings source) (hsource : s.read source = .ok bytes) :
    Adds s meetings (events, u) := by
  have hnew : t.lookup place = none := by
    by_contra hsome
    rw [← hnone] at hsome
    exact hopens.lookup_ne_directory (hadds.gained place hsome).1
  have hplace : ∀ other content, s.lookup other = none → u.lookup other = some (.file content) →
      other = place := by
    intro other content hother hfile
    by_contra hne
    rw [hwrites.lookup_of_ne hne, hadds.file_iff] at hfile
    rw [hfile] at hother
    simp at hother
  refine ⟨hadds.addsBelow.trans (hwrites.addsBelow hnew List.nil_prefix), ?_, ?_, ?_⟩
  · have hsingle : {other | IsNewFile s u other} = {place} := by
      refine Set.eq_singleton_iff_unique_mem.2 ⟨⟨hnone, bytes, hwrites.lookup_self⟩, ?_⟩
      rintro other ⟨hother, content, hfile⟩
      exact hplace other content hother hfile
    rw [hsingle, Set.encard_singleton, hevents, Nat.cast_one]
  · intro meeting hmeeting other hfill
    rw [hfilled meeting hmeeting other hfill, hwrites.lookup_self]
    simp
  · intro other content hother hfile
    obtain rfl := hplace other content hother hfile
    rw [hwrites.lookup_self] at hfile
    obtain rfl : bytes = content := by simpa using hfile
    exact ⟨source, hfirst, hsource⟩

/-! ## One item -/

/-- An output root with a parent piece leads to where there are files below it. -/
def SeesFiles (r : Runner) (fs : FileSystem) : Prop :=
  ".." ∈ pieces r.outputRoot → ∀ place bytes, fs.spot r.outputRoot <+: place →
    fs.lookup place = some (.file bytes) → ∃ here, fs.LeadsTo r.outputRoot here

theorem SeesFiles.of_changes (h : r.SeesFiles s) {item : Item} (hitem : item.IsWithin r.naming)
    (hchanges : item.Changes s t) : r.SeesFiles t := by
  have hsame : AddsDirectories [] s t → r.SeesFiles t := by
    intro hadds hup place bytes hbelow hfile
    rw [spot_congr hadds.workDir] at hbelow
    obtain ⟨here, hleads⟩ := h hup place bytes hbelow (hadds.file_iff.1 hfile)
    exact ⟨here, hleads.of_growsBelow hadds.growsBelow⟩
  cases hchanges with
  | nothing => exact h
  | directory target => exact hsame (addsDirectories_makeDirectories s target)
  | parent htarget => exact hsame (addsDirectories_makeParent s _)
  | file htarget hopens hwrites =>
    -- the way to the file that was written passes the root
    intro _ _ _ _ _
    obtain ⟨names, hextends⟩ := hitem.file htarget
    have hgrows := hwrites.growsBelow hopens.lookup_ne_directory List.nil_prefix
    exact hextends.exists_leadsTo
      (hopens.resolve_of_growsBelow hgrows (by simp [hwrites.lookup_self]))

/-- A file that a target leads to in the end is seen there if it is there already. -/
theorem SeesFiles.isThere (h : r.SeesFiles s) (htarget : r.naming.file target)
    (hgrows : GrowsBelow [] s t) (ht : t.resolve target = .ok (.found place)) {bytes : ByteArray}
    (hfile : s.lookup place = some (.file bytes)) : s.isThere target = true := by
  have hplace : s.lookup place ≠ none := by simp [hfile]
  obtain ⟨names, hextends⟩ := htarget
  by_cases hup : ".." ∈ pieces r.outputRoot
  · have hspot : place = t.spot target := eq_spot_of_resolve ht
    rw [spot_congr hgrows.workDir, hextends.spot_eq] at hspot
    obtain ⟨here, hleads⟩ := h hup place bytes (hspot ▸ List.prefix_append _ names) hfile
    exact isThere_iff.2 ⟨place, hextends.resolve_found_of_grown hleads hgrows ht hplace, hplace⟩
  · by_contra hnot
    have hmem := parent_mem_pieces hgrows (Bool.eq_false_iff.2 hnot) ht hplace
    rw [hextends.pieces_eq] at hmem
    rcases List.mem_append.1 hmem with hmem | hmem
    · exact hup hmem
    · exact (hextends.isName _ hmem).isStep.2 rfl

/-- What can be opened though nothing was seen there was nothing before: a file would have been
    seen, and a directory cannot be opened. -/
theorem SeesFiles.lookup_eq_none (h : r.SeesFiles s) (htarget : r.naming.file target)
    (hthere : s.isThere target = false) (hadds : AddsDirectories [] s t)
    (hopens : t.Opens target place) : s.lookup place = none := by
  have hput := hopens.writes_put .empty
  have hgrows := hput.growsBelow hopens.lookup_ne_directory List.nil_prefix
  have hresolve := hopens.resolve_of_growsBelow hgrows (by simp [hput.lookup_self])
  by_contra hsome
  obtain ⟨e, hentry⟩ := Option.ne_none_iff_exists'.1 hsome
  cases e with
  | directory => exact hopens.lookup_ne_directory (hadds.growsBelow.directory place hentry)
  | file bytes =>
    have hseen := h.isThere htarget (hadds.growsBelow.trans hgrows) hresolve hentry
    simp [hthere] at hseen

theorem adds_copyBytes (hr : r.overwrite = false) (hapart : r.RootsApart s) (hsees : r.SeesFiles s)
    {here : List String} (hroot : s.LeadsTo r.templateRoot here)
    (hsource : r.naming.source source) (htarget : r.naming.file target) :
    Adds s [(.copy source target, s)] (r.copyBytes source target s) := by
  have hcan : ∀ meeting ∈ [((.copy source target : Item), s)], ∀ place,
      CanFill place meeting → CanCopy s source target place := by
    intro meeting hmem place hfill
    rwa [List.mem_singleton.1 hmem] at hfill
  cases hthere : s.isThere target with
  | true =>
    rw [copyBytes_of_isThere hr hthere]
    exact .of_addsDirectories (.refl [] s) rfl fun meeting hmem place hfill =>
      (hcan meeting hmem place hfill).lookup_ne_none hthere
  | false =>
    have hallowed : (!r.overwrite && s.isThere target) = false := by rw [hthere, Bool.and_false]
    have hadds := addsDirectories_makeParent s target
    rcases hmade : s.makeParent target with ⟨cause | _, made⟩
    · rw [hmade] at hadds
      rw [copyBytes_of_makeParent_error hallowed hmade]
      exact .of_addsDirectories hadds rfl fun meeting hmem place hfill =>
        absurd (hcan meeting hmem place hfill) (not_canCopy_of_makeParent_error hmade)
    rw [hmade] at hadds
    rcases copy_cases made source target with
      ⟨cause, hcopy⟩ | ⟨place, bytes, done, hopens, hbytes, hcopy, hwrites⟩
    · rw [copyBytes_of_copy_error hallowed hmade hcopy]
      exact .of_addsDirectories hadds rfl fun meeting hmem place hfill =>
        absurd (hcan meeting hmem place hfill) (not_canCopy_of_copy_error hmade hcopy)
    have hgrows := hwrites.growsBelow hopens.lookup_ne_directory List.nil_prefix
    have hresolve : done.resolve target = .ok (.found place) :=
      hopens.resolve_of_growsBelow hgrows (by simp [hwrites.lookup_self])
    have hbelow : s.spot r.outputRoot <+: place := by
      rw [← spot_congr hadds.workDir]
      exact below_of_file htarget hopens
    -- the source is read when the target was opened, and it does not stand below the output root
    have hkeeps := (KeepsFiles.of_addsDirectories hadds).trans
      (.of_writes hopens (hopens.writes_put .empty) hbelow)
    have hread := (read_iff_of_keepsFiles hapart hroot hkeeps hsource bytes).1 hbytes
    have hfirst : FirstFill place [(.copy source target, s)] source :=
      ⟨[], target, s, [], rfl, (canCopy_iff hmade hcopy).2 hresolve,
        fun _ hmem => absurd hmem List.not_mem_nil⟩
    rw [copyBytes_of_ok hallowed hmade hcopy]
    refine .of_writes hadds hopens hwrites (hsees.lookup_eq_none htarget hthere hadds hopens) rfl
      (fun meeting hmem other hfill => ?_) hfirst hread
    have hother := (canCopy_iff hmade hcopy).1 (hcan meeting hmem other hfill)
    rw [hresolve] at hother
    simpa using hother.symm

/-- Whether the item writes a filtered file. -/
def Item.isFilter : Item → Bool
  | .filter _ _ => true
  | _ => false

theorem adds_perform (hr : r.overwrite = false) (hapart : r.RootsApart s) (hsees : r.SeesFiles s)
    {item : Item} (hitem : item.IsWithin r.naming) (hfilter : item.isFilter = false)
    (hroot : ∀ source target, item = .copy source target → ∃ here, s.LeadsTo r.templateRoot here) :
    Adds s [(item, s)] (r.perform item s) := by
  have hnothing : (∀ source target, item ≠ .copy source target) →
      ∀ meeting ∈ [(item, s)], ∀ place, ¬ CanFill place meeting := by
    intro hcopy meeting hmem place hfill
    rw [List.mem_singleton.1 hmem] at hfill
    cases item with
    | copy source target => exact hcopy source target rfl
    | _ => exact hfill
  cases item with
  | start op =>
    exact .of_addsDirectories (.refl [] s) rfl fun meeting hmem place hfill =>
      absurd hfill (hnothing (by simp) meeting hmem place)
  | skip error =>
    exact .of_addsDirectories (.refl [] s) rfl fun meeting hmem place hfill =>
      absurd hfill (hnothing (by simp) meeting hmem place)
  | directory target =>
    have hadds := addsDirectories_makeDirectories s target
    unfold perform
    dsimp only
    rw [makeCopy_eq]
    refine .of_addsDirectories hadds ?_ fun meeting hmem place hfill =>
      absurd hfill (hnothing (by simp) meeting hmem place)
    cases (s.makeDirectories target).1 <;> rfl
  | copy source target =>
    obtain ⟨here, hleads⟩ := hroot source target rfl
    exact adds_copyBytes hr hapart hsees hleads hitem.1 hitem.2
  | filter source target => simp [Item.isFilter] at hfilter

/-! ## One item after the other -/

theorem adds_performAll {items : List Item} (hr : r.overwrite = false) (hapart : r.RootsApart s)
    (hsees : r.SeesFiles s) (hitems : ∀ item ∈ items, item.IsWithin r.naming)
    (hfilters : ∀ item ∈ items, item.isFilter = false)
    (hroot : ∀ source target, .copy source target ∈ items →
      ∃ here, s.LeadsTo r.templateRoot here) :
    Adds s (r.meetings items s) (r.performAll items s) := by
  induction items generalizing s with
  | nil =>
    exact .of_addsDirectories (.refl [] s) rfl fun meeting hmeeting =>
      absurd hmeeting List.not_mem_nil
  | cons item items ih =>
    have hitem := hitems item List.mem_cons_self
    have hchanges := changes_perform r item s
    have hkeeps := keepsFiles_of_changes hchanges hitem
    have hfirst : Adds s [(item, s)] (r.perform item s) :=
      adds_perform hr hapart hsees hitem (hfilters item List.mem_cons_self)
        fun source target heq => hroot source target (heq ▸ List.mem_cons_self)
    have hrest : Adds (r.perform item s).2 (r.meetings items (r.perform item s).2)
        (r.performAll items (r.perform item s).2) := by
      refine ih (hapart.congr hkeeps.grows.workDir) (hsees.of_changes hitem hchanges)
        (fun other hother => hitems other (List.mem_cons_of_mem _ hother))
        (fun other hother => hfilters other (List.mem_cons_of_mem _ hother)) ?_
      intro source target hmem
      obtain ⟨here, hleads⟩ := hroot source target (List.mem_cons_of_mem _ hmem)
      exact ⟨here, hleads.of_growsBelow hkeeps.grows⟩
    rw [performAll_cons]
    refine hfirst.append hrest fun source target before hmeeting bytes hread => ?_
    have hmem : .copy source target ∈ item :: items :=
      List.mem_cons_of_mem _ (fst_mem_of_mem_meetings hmeeting)
    obtain ⟨here, hleads⟩ := hroot source target hmem
    exact (read_iff_of_keepsFiles hapart hleads hkeeps (hitems _ hmem).1 bytes).1 hread

/-! ## The items of a run -/

/-- If a copy comes up, the template root led somewhere to begin with. -/
theorem exists_leadsTo_of_copy_mem {ops : List Operation} (hops : ∀ op ∈ ops, op.IsNamed)
    (h : .copy source target ∈ r.gather (ops.map r.operationItems) s) :
    ∃ here, s.LeadsTo r.templateRoot here := by
  by_contra hroot
  induction ops with
  | nil => exact List.not_mem_nil h
  | cons op ops ih =>
    have hop := hops op List.mem_cons_self
    have hsource : Extends r.templateRoot (r.sourceOf op) op.transfer.source.segments :=
      (extendsToName_below r.templateRoot hop.source).toExtends
    have hnowhere : ∀ place, s.resolve (r.sourceOf op) ≠ .ok (.found place) :=
      fun place hresolve => hroot (hsource.exists_leadsTo hresolve)
    rw [List.map_cons, gather, ← performs_operationItems, runOperation_of_nowhere hnowhere] at h
    rcases List.mem_append.1 h with h | h
    · obtain ⟨item, hitem, heq⟩ := operationItems_of_nowhere hnowhere
      rw [heq] at h
      rcases hitem with rfl | rfl <;> simp at h
    · exact ih (fun other hother => hops other (List.mem_cons_of_mem _ hother)) h

theorem forall_mem_gather {p : Item → Prop} {scripts : List Script}
    (h : ∀ script ∈ scripts, ∀ fs, ∀ item ∈ script fs, p item) (fs : FileSystem) :
    ∀ item ∈ r.gather scripts fs, p item := by
  induction scripts generalizing fs with
  | nil => exact fun item hitem => absurd hitem List.not_mem_nil
  | cons script scripts ih =>
    intro item hitem
    rcases List.mem_append.1 hitem with hitem | hitem
    · exact h script List.mem_cons_self fs item hitem
    · exact ih (fun other hother => h other (List.mem_cons_of_mem _ hother)) _ item hitem

theorem isFilter_directoryItems (r : Runner) (room : Nat) (source target : String)
    (fs : FileSystem) :
    ∀ item ∈ r.directoryItems room source target fs, item.isFilter = false := by
  induction room generalizing source target fs with
  | zero =>
    cases hlist : fs.list source with
    | error cause =>
      rw [directoryItems_of_error 0 hlist]
      simp [Item.isFilter]
    | ok entries =>
      rw [directoryItems_zero hlist]
      simp [Item.isFilter]
  | succ room ih =>
    cases hlist : fs.list source with
    | error cause =>
      rw [directoryItems_of_error (room + 1) hlist]
      simp [Item.isFilter]
    | ok entries =>
      rw [directoryItems_succ room hlist]
      refine forall_mem_gather (fun script hscript fs => ?_) fs
      rcases List.mem_cons.1 hscript with rfl | hscript
      · simp [Item.isFilter]
      obtain ⟨⟨name, isDirectory⟩, -, rfl⟩ := List.mem_map.1 hscript
      cases isDirectory with
      | true => exact ih _ _ fs
      | false => simp [Item.isFilter]

theorem isFilter_operationItems (r : Runner) {op : Operation} (h : op.kind ≠ .filterFile)
    (fs : FileSystem) : ∀ item ∈ r.operationItems op fs, item.isFilter = false := by
  unfold operationItems
  intro item hitem
  rcases List.mem_cons.1 hitem with rfl | hitem
  · rfl
  cases hkind : op.kind with
  | copySubtree =>
    simp only [hkind] at hitem
    split at hitem
    · exact isFilter_directoryItems r pathLimit _ _ fs item hitem
    · rw [List.mem_singleton.1 hitem]
      rfl
  | copyFile =>
    simp only [hkind] at hitem
    split at hitem <;> rw [List.mem_singleton.1 hitem] <;> rfl
  | filterFile => exact absurd hkind h

theorem isFilter_items (r : Runner) {set : OperationSet} (h : set.fileFilters = [])
    (fs : FileSystem) : ∀ item ∈ r.items set fs, item.isFilter = false := by
  refine forall_mem_gather (fun script hscript => ?_) fs
  obtain ⟨op, hop, rfl⟩ := List.mem_map.1 hscript
  refine isFilter_operationItems r fun hkind => ?_
  obtain ⟨transfer, hmem, -⟩ := filterTarget_of_mem (r := r) hop hkind
  rw [h] at hmem
  exact List.not_mem_nil hmem

/-! ## Runs -/

/-- A run of copies that may not overwrite changes nothing that was there and brings as many new
    files as it says to have written. Each of them holds the bytes of the source of the first item
    that targets it and could be copied. -/
theorem run_adds (r : Runner) (set : OperationSet) (fs : FileSystem) (hfs : fs.WellFormed)
    (hr : r.overwrite = false) (hapart : r.RootsApart fs) (hsees : r.SeesFiles fs)
    (hset : ∀ op ∈ set.operations, op.IsNamed) (hfilters : set.fileFilters = []) :
    (∀ place, fs.lookup place ≠ none → (r.run set fs).2.lookup place = fs.lookup place) ∧
    {place | IsNewFile fs (r.run set fs).2 place}.encard =
      (Report.ofEvents (r.run set fs).1).written ∧
    ∀ place bytes, fs.lookup place = none →
      (r.run set fs).2.lookup place = some (.file bytes) →
      ∃ source, FirstFill place (r.meetings (r.items set fs) fs) source ∧
        fs.read source = .ok bytes := by
  have hitems : ∀ item ∈ r.items set fs, item.IsWithin r.naming :=
    isWithin_items (fun op hop => admits_naming (hset op hop)) hfs
  have hadds := adds_performAll hr hapart hsees hitems (isFilter_items r hfilters fs)
    fun source target hcopy => exists_leadsTo_of_copy_mem hset hcopy
  rw [run_eq_performAll]
  exact ⟨hadds.adds.kept, hadds.written, hadds.first⟩

/-- Copies the directory of the template, and its file once more to the same place. -/
def rivalSet : OperationSet :=
  ⟨[⟨⟨["a"]⟩, ⟨["c"]⟩⟩], [⟨⟨["a", "note.txt"]⟩, ⟨["c", "note.txt"]⟩⟩], []⟩

theorem run_adds_rivals : noteFiles.WellFormed ∧ (noteRunner "tpl").overwrite = false ∧
    (noteRunner "tpl").RootsApart noteFiles ∧ (noteRunner "tpl").SeesFiles noteFiles ∧
    (∀ op ∈ rivalSet.operations, op.IsNamed) ∧ rivalSet.fileFilters = [] ∧
    (∀ place, noteFiles.lookup place ≠ none →
      ((noteRunner "tpl").run rivalSet noteFiles).2.lookup place = noteFiles.lookup place) ∧
    {place | IsNewFile noteFiles ((noteRunner "tpl").run rivalSet noteFiles).2 place}.encard = 1 ∧
    ∀ bytes, ((noteRunner "tpl").run rivalSet noteFiles).2.lookup ["out", "c", "note.txt"] =
        some (.file bytes) →
      ∃ source, FirstFill ["out", "c", "note.txt"]
          ((noteRunner "tpl").meetings ((noteRunner "tpl").items rivalSet noteFiles) noteFiles)
          source ∧ noteFiles.read source = .ok bytes := by
  have hapart : (noteRunner "tpl").RootsApart noteFiles := noteFiles_given.1
  have hsees : (noteRunner "tpl").SeesFiles noteFiles := fun hup => absurd hup (by decide)
  have hset : ∀ op ∈ rivalSet.operations, op.IsNamed := by decide
  have hnone : noteFiles.lookup ["out", "c", "note.txt"] = none := by decide +kernel
  have hwritten :
      (Report.ofEvents ((noteRunner "tpl").run rivalSet noteFiles).1).written = 1 := by
    decide +kernel
  obtain ⟨hkept, hnew, hfirst⟩ := run_adds (noteRunner "tpl") rivalSet noteFiles
    noteFiles_wellFormed rfl hapart hsees hset rfl
  rw [hwritten] at hnew
  exact ⟨noteFiles_wellFormed, rfl, hapart, hsees, hset, rfl, hkept, hnew,
    fun bytes hfile => hfirst _ bytes hnone hfile⟩

/-! ## A detour to the output root -/

/-- Runs to the output directory by way of a directory that is not there. -/
def detourRootRunner : Runner :=
  ⟨id, "tpl", "new/../out", false⟩

/-- Copies the file of the template over that of the output directory. -/
def noteFileSet : OperationSet :=
  ⟨[], [⟨⟨["a", "note.txt"]⟩, ⟨["b", "note.txt"]⟩⟩], []⟩

/-- What is there is not left as it is if the output root does not lead to it. -/
theorem exists_run_replaces : ¬ ∀ (r : Runner) (set : OperationSet) (fs : FileSystem),
    fs.WellFormed → r.overwrite = false → r.RootsApart fs →
    (∀ op ∈ set.operations, op.IsNamed) → set.fileFilters = [] →
      ∀ place, fs.lookup place ≠ none → (r.run set fs).2.lookup place = fs.lookup place := by
  intro hkeeps
  have hapart : detourRootRunner.RootsApart noteFiles := by
    unfold RootsApart
    decide +kernel
  have hset : ∀ op ∈ noteFileSet.operations, op.IsNamed := by decide
  have hfile : noteFiles.lookup ["out", "b", "note.txt"] = some (.file "old".toUTF8) := by
    decide +kernel
  have hlost : (detourRootRunner.run noteFileSet noteFiles).2.lookup ["out", "b", "note.txt"] =
      some (.file "new".toUTF8) := by
    decide +kernel
  have hkept := hkeeps detourRootRunner noteFileSet noteFiles noteFiles_wellFormed rfl hapart hset
    rfl ["out", "b", "note.txt"] (by simp [hfile])
  rw [hfile, hlost] at hkept
  exact absurd hkept (by decide +kernel)

end Runner

end Scaffold
