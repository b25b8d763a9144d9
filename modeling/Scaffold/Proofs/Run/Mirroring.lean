import Scaffold.Proofs.FileSystem.Fresh
import Scaffold.Proofs.Run.Accounting

set_option autoImplicit false

/-! # Copies of directories at free places

A directory that is copied to a place where nothing is ends up there as it is: with the same
directories, empty ones too, and the same files, and with nothing else. What is in the directory is
copied name by name, and none of the names stands in the way of another. -/

namespace Scaffold

open FileSystem

/-- What stood at the path text `source` in `base` stands at the place now, and everything else is as
    it was. Nothing was passed over, and each file was counted. -/
structure Replicates (base : FileSystem) (source : String) (place : List String) (s : FileSystem)
    (outcome : List Event × FileSystem) : Prop where
  workDir : outcome.2.workDir = s.workDir
  below : ∀ names, outcome.2.lookup (place ++ names) = base.lookup (base.spot source ++ names)
  outside : ∀ other, ¬ place <+: other → outcome.2.lookup other = s.lookup other
  skipped : (Report.ofEvents outcome.1).skipped = []
  written : (Report.ofEvents outcome.1).written = base.filesBelow source

/-- The same for some of the names in a directory. -/
structure ReplicatesAll (base : FileSystem) (source : String) (place : List String)
    (entries : List (String × Bool)) (s : FileSystem) (outcome : List Event × FileSystem) :
    Prop where
  workDir : outcome.2.workDir = s.workDir
  below : ∀ entry ∈ entries, ∀ names, outcome.2.lookup (place ++ entry.1 :: names) =
    base.lookup (base.spot source ++ entry.1 :: names)
  outside : ∀ other, (∀ entry ∈ entries, ¬ place ++ [entry.1] <+: other) →
    outcome.2.lookup other = s.lookup other
  skipped : (Report.ofEvents outcome.1).skipped = []
  written : (Report.ofEvents outcome.1).written =
    (entries.map fun entry => base.filesBelow (Path.join source entry.1)).sum

variable {base s made : FileSystem} {source target name : String} {place top : List String}

/-- Where nothing was, all that has happened is growth. -/
theorem Replicates.growsBelow {outcome : List Event × FileSystem}
    (h : Replicates base source place s outcome) (hfree : s.lookup place = none) :
    GrowsBelow place s outcome.2 := by
  have hkept : ∀ other, s.lookup other ≠ none → outcome.2.lookup other = s.lookup other :=
    fun other hother => h.outside other fun hon => lookup_ne_none_above hon hother hfree
  refine ⟨h.workDir, fun other hdirectory => ?_, fun other bytes hfile => ⟨bytes, ?_⟩, h.outside⟩
  · rw [hkept other (by simp [hdirectory]), hdirectory]
  · rw [hkept other (by simp [hfile]), hfile]

theorem Replicates.of_made {outcome : List Event × FileSystem}
    (h : Replicates base source place made outcome) (hworkDir : made.workDir = s.workDir)
    (hmade : ∀ other, other ≠ place → made.lookup other = s.lookup other) :
    Replicates base source place s outcome :=
  { h with
    workDir := h.workDir.trans hworkDir
    outside := fun other hother => (h.outside other hother).trans <|
      hmade other fun heq => hother (heq ▸ List.prefix_rfl) }

theorem replicatesAll_nil (base : FileSystem) (source : String) (place : List String)
    (s : FileSystem) : ReplicatesAll base source place [] s ([], s) where
  workDir := rfl
  below := fun _ hentry => absurd hentry List.not_mem_nil
  outside := fun _ _ => rfl
  skipped := rfl
  written := rfl

theorem prefix_concat_cons_iff {first second : String} {rest : List String} :
    place ++ [first] <+: place ++ second :: rest ↔ first = second := by
  rw [List.prefix_append_right_inj, List.cons_prefix_cons]
  exact and_iff_left List.nil_prefix

/-- Names that come later do not touch what was copied under the first one. -/
theorem Replicates.cons {step : Step} {steps : List Step} {isDirectory : Bool}
    {entries : List (String × Bool)} (hname : IsName name) (hnew : name ∉ entries.map Prod.fst)
    (h : Replicates base (Path.join source name) (place ++ [name]) s (step s))
    (h' : ReplicatesAll base source place entries (step s).2 (Step.seq steps (step s).2)) :
    ReplicatesAll base source place ((name, isDirectory) :: entries) s
      (Step.seq (step :: steps) s) where
  workDir := h'.workDir.trans h.workDir
  below := by
    intro entry hentry names
    rcases List.mem_cons.1 hentry with rfl | hentry
    · have hother : ∀ other ∈ entries, ¬ place ++ [other.1] <+: place ++ name :: names := by
        intro other hother hon
        exact hnew (prefix_concat_cons_iff.1 hon ▸ List.mem_map_of_mem hother)
      have hbelow := h.below names
      rw [spot_join_append base source hname, List.append_assoc] at hbelow
      exact (h'.outside _ hother).trans hbelow
    · exact h'.below entry hentry names
  outside := by
    intro other hother
    refine (h'.outside other fun entry hentry => ?_).trans (h.outside other ?_)
    · exact hother entry (List.mem_cons_of_mem _ hentry)
    · exact hother _ List.mem_cons_self
  skipped := by
    rw [Step.seq, Report.ofEvents_append, Report.merge, h.skipped, h'.skipped]
    rfl
  written := by
    rw [Step.seq, Report.ofEvents_append, Report.merge, h.written, h'.written]
    rfl

/-- A directory without anything in it, and then all that is in the copied one. -/
theorem ReplicatesAll.replicates {entries : List (String × Bool)}
    {outcome : List Event × FileSystem} (hfs : base.WellFormed)
    (hlist : base.list source = .ok entries)
    (h : ReplicatesAll base source place entries made outcome)
    (hplace : made.lookup place = some .directory)
    (hempty : ∀ name, made.lookup (place ++ [name]) = none) :
    Replicates base source place made outcome where
  workDir := h.workDir
  below := by
    intro names
    cases names with
    | nil =>
      have hsource := kind?_eq_directory_iff.1 (kind?_of_list hlist)
      rw [List.append_nil, List.append_nil, hsource, h.outside place, hplace]
      intro entry _ hon
      have hlength := hon.length_le
      rw [List.length_append, List.length_singleton] at hlength
      omega
    | cons name rest =>
      by_cases hname : base.lookup (base.spot source ++ [name]) = none
      · have hnot : ∀ entry ∈ entries, ¬ place ++ [entry.1] <+: place ++ name :: rest := by
          rintro entry hentry hon
          obtain rfl := prefix_concat_cons_iff.1 hon
          exact ((mem_entries_iff hlist).1 hentry).1 hname
        rw [h.outside _ hnot, lookup_cons_eq_none (hempty name), lookup_cons_eq_none hname]
      · exact h.below _ ((mem_entries_iff hlist).2 ⟨hname, rfl⟩) rest
  outside := fun other hother => h.outside other fun entry _ hon =>
    hother ((List.prefix_append place [entry.1]).trans hon)
  skipped := h.skipped
  written := by rw [h.written, filesBelow_of_list hfs hlist]

namespace Runner

variable {r : Runner} {origin : String} {here before : List String}

/-- Everything below the source is found by the path text that it is reached by, and the path text
    of its copy can be handed to the system. -/
def Reaches (fs : FileSystem) (source target : String) : Prop :=
  ∀ names, fs.lookup (fs.spot source ++ names) ≠ none →
    fs.isThere (along source names) = true ∧ Accepts (along target names)

theorem Reaches.join (h : Reaches base source target) (hname : IsName name) :
    Reaches base (Path.join source name) (Path.join target name) := by
  intro names hnames
  rw [spot_join_append base source hname] at hnames
  exact h (name :: names) hnames

theorem Reaches.isDirectory (h : Reaches base source target) {names : List String}
    (hnames : ∀ name ∈ names, IsName name)
    (hdirectory : base.lookup (base.spot source ++ names) = some .directory) :
    base.isDirectory (along source names) = true := by
  obtain ⟨hthere, -⟩ := h names (by simp [hdirectory])
  obtain ⟨found, hresolve, -⟩ := isThere_iff.1 hthere
  refine isDirectory_iff_resolve.2 ⟨_, hresolve, ?_⟩
  have hspot : found = base.spot (along source names) := eq_spot_of_resolve hresolve
  rw [hspot, (extends_along hnames source).spot_eq, hdirectory]

/-- Where everything is found, a walk comes to everything. -/
theorem Reaches.visitsAll (h : Reaches base source target) (hfs : base.WellFormed) :
    base.VisitsAll source := by
  intro names hthere
  refine ⟨hthere, fun above habove hne => ?_⟩
  have hnames : ∀ name ∈ above, IsName name := fun name hname =>
    hfs.isName _ hthere name (List.mem_append_right _ (habove.subset hname))
  obtain ⟨_ | ⟨next, rest⟩, heq⟩ := habove
  · exact absurd (by simpa using heq) hne
  · rw [← heq, ← List.append_assoc] at hthere
    exact h.isDirectory hnames (lookup_of_append (List.cons_ne_nil next rest) hthere)

/-! ## One file -/

/-- A file that can be read is copied to a free name. -/
theorem replicates_copyBytes (r : Runner) (htemplate : base.LeadsTo origin here)
    (hapart : LieApart top here) (hsource : Extends origin source before) {bytes : ByteArray}
    (hread : base.read source = .ok bytes) (hs : GrowsBelow top base s)
    (hroot : s.IsRoot target place) (hbelow : top <+: place) (hname : IsLegal name)
    (haccepts : Accepts (Path.join target name)) (hfree : s.lookup (place ++ [name]) = none) :
    Replicates base source (place ++ [name]) s (r.copyBytes source (Path.join target name) s) := by
  obtain ⟨found, hfound, hfile⟩ := read_eq_ok_iff.1 hread
  obtain rfl : found = base.spot source := eq_spot_of_resolve hfound
  have hjoin := (Extends.refl target).join_name hname.isName
  have hresolve := resolve_join_of_lookup hroot hname haccepts hfree
  have hthere : (!r.overwrite && s.isThere (Path.join target name)) = false := by
    have hnot : s.isThere (Path.join target name) = false := by
      unfold isThere entry?
      rw [hresolve]
      rfl
    rw [hnot, Bool.and_false]
  have hparent := makeParent_of_resolve hjoin (hroot.lookup_start hjoin.isAbsolute) hresolve
  have hopens : s.Opens (Path.join target name) (place ++ [name]) := .free hresolve
  have hon : top <+: place ++ [name] := hbelow.trans (List.prefix_append place [name])
  have hput := (hopens.writes_put .empty).growsBelow hopens.lookup_ne_directory hon
  have hsame : ∀ u, GrowsBelow top base u → u.read source = .ok bytes := fun u hu =>
    (read_of_lieApart hsource htemplate hapart hu).trans hread
  obtain ⟨bytes', done, hbytes, hcopy, hwrites⟩ :=
    copy_of_opens (hsame s hs) hopens (write_of_opens hopens .empty)
  obtain rfl := Except.ok.inj (hbytes.symm.trans (hsame _ (hs.trans hput)))
  rw [copyBytes_of_ok hthere hparent hcopy]
  have hkind : base.kind? (base.spot source) = some .file := kind?_eq_file_iff.2 ⟨_, hfile⟩
  refine ⟨hwrites.workDir, fun names => ?_, fun other hother => ?_, rfl, ?_⟩
  · cases names with
    | nil => rw [List.append_nil, List.append_nil, hwrites.lookup_self, hfile]
    | cons next rest =>
      rw [lookup_append_eq_none (List.cons_ne_nil next rest) (by simp [hwrites.lookup_self]),
        lookup_append_eq_none (List.cons_ne_nil next rest) (by simp [hfile])]
  · refine hwrites.lookup_of_ne ?_
    rintro rfl
    exact hother List.prefix_rfl
  · rw [filesBelow_of_leaf hkind (isDirectory_of_kind?_file hkind), if_pos rfl]
    rfl

/-! ## What is in a directory -/

/-- Where each of the names can be copied as long as it is free, they can be copied one after the
    other. -/
theorem replicatesAll_entries {entries : List (String × Bool)} {step : String × Bool → Step}
    (hnodup : (entries.map Prod.fst).Nodup) (hnames : ∀ entry ∈ entries, IsName entry.1)
    (hstep : ∀ entry ∈ entries, ∀ s, GrowsBelow top base s → s.IsRoot target place →
      s.lookup (place ++ [entry.1]) = none →
      Replicates base (Path.join source entry.1) (place ++ [entry.1]) s (step entry s))
    (hs : GrowsBelow top base s) (hroot : s.IsRoot target place) (hbelow : top <+: place)
    (hfree : ∀ entry ∈ entries, s.lookup (place ++ [entry.1]) = none) :
    ReplicatesAll base source place entries s (Step.seq (entries.map step) s) := by
  induction entries generalizing s with
  | nil => exact replicatesAll_nil base source place s
  | cons entry entries ih =>
    obtain ⟨hnew, hnodup⟩ := List.nodup_cons.1 hnodup
    have hfirst := hstep entry List.mem_cons_self s hs hroot (hfree entry List.mem_cons_self)
    have hgrows := (hfirst.growsBelow (hfree entry List.mem_cons_self)).mono
      (hbelow.trans (List.prefix_append place [entry.1]))
    refine hfirst.cons (hnames entry List.mem_cons_self) hnew (ih hnodup ?_ ?_ (hs.trans hgrows)
      (hroot.of_growsBelow hgrows) fun other hother => ?_)
    · exact fun other hother => hnames other (List.mem_cons_of_mem _ hother)
    · exact fun other hother => hstep other (List.mem_cons_of_mem _ hother)
    · have hne : ¬ place ++ [entry.1] <+: place ++ [other.1] := fun hon =>
        hnew (prefix_concat_cons_iff.1 hon ▸ List.mem_map_of_mem hother)
      rw [hfirst.outside _ hne]
      exact hfree other (List.mem_cons_of_mem _ hother)

/-- Where directories at most so deep are copied to fresh places as they are, so is each name of a
    directory that is one level higher. -/
theorem replicates_entry (r : Runner) (hfs : base.WellFormed) (htemplate : base.LeadsTo origin here)
    (hapart : LieApart top here) {room : Nat}
    (ih : ∀ {source target : String} {before place : List String} {s made : FileSystem},
      Extends origin source before → base.isDirectory source = true →
      Reaches base source target → pathLimit ≤ room + source.utf8ByteSize →
      s.list source = base.list source → s.MakesFresh target place made →
      GrowsBelow top base made → top <+: place →
      Replicates base source place made (r.copyDirectory room source target s))
    (hsource : Extends origin source before) (hreach : Reaches base source target)
    (hroom : pathLimit ≤ room + 1 + source.utf8ByteSize) {entries : List (String × Bool)}
    (hbase : base.list source = .ok entries) {isDirectory : Bool}
    (hentry : (name, isDirectory) ∈ entries) (hs : GrowsBelow top base s)
    (hroot : s.IsRoot target place) (hbelow : top <+: place)
    (hfree : s.lookup (place ++ [name]) = none) :
    Replicates base (Path.join source name) (place ++ [name]) s
      ((if isDirectory then r.copyDirectory room (Path.join source name) (Path.join target name)
        else r.copyBytes (Path.join source name) (Path.join target name)) s) := by
  have hname := hfs.isName_of_list hbase hentry
  obtain ⟨hthere, haccepts⟩ := hreach [name] ((mem_entries_iff hbase).1 hentry).1
  have hlegal := isLegal_of_isThere hname hthere
  have hkind := kind?_of_mem_entries hfs hbase hentry
  cases isDirectory with
  | true =>
    obtain ⟨made, hmade, hadds, hsame⟩ := exists_makesFresh_join hroot hlegal haccepts hfree
    have hlonger := lt_utf8ByteSize_join source hname
    have hdirectory : base.isDirectory (along source [name]) = true := by
      refine hreach.isDirectory (by simpa using hname) ?_
      rw [← spot_join base source hname]
      exact kind?_eq_directory_iff.1 hkind
    have hlist := list_of_lieApart (hsource.join hname) htemplate hapart hs
    have hcopy := ih (hsource.join hname) hdirectory (hreach.join hname) (by omega) hlist hmade
      (hs.trans (hadds.growsBelow.mono hbelow)) (hbelow.trans (List.prefix_append place [name]))
    rw [if_pos rfl]
    exact hcopy.of_made hadds.workDir hsame
  | false =>
    obtain ⟨bytes, hread⟩ := exists_read_of_isThere hthere hkind
    rw [if_neg Bool.false_ne_true]
    exact replicates_copyBytes r htemplate hapart (hsource.join hname) hread hs hroot hbelow hlegal
      haccepts hfree

/-- A directory that has just been made comes to hold what the copied one holds. -/
theorem replicates_copyDirectory (r : Runner) (hfs : base.WellFormed)
    (htemplate : base.LeadsTo origin here) (hapart : LieApart top here) (room : Nat)
    (hsource : Extends origin source before) (hdirectory : base.isDirectory source = true)
    (hreach : Reaches base source target) (hroom : pathLimit ≤ room + source.utf8ByteSize)
    (hlist : s.list source = base.list source) (hmade : s.MakesFresh target place made)
    (hgrows : GrowsBelow top base made) (hbelow : top <+: place) :
    Replicates base source place made (r.copyDirectory room source target s) := by
  induction room generalizing source target before place s made with
  | zero =>
    obtain ⟨entries, hbase⟩ := isDirectory_iff_exists_list.1 hdirectory
    obtain ⟨found, -, hresolve, -⟩ := exists_of_list hbase
    -- the path is too long to be listed
    have hshort := (resolve_eq_ok_iff.1 hresolve).1.2.2
    omega
  | succ room ih =>
    obtain ⟨entries, hbase⟩ := isDirectory_iff_exists_list.1 hdirectory
    have hseq : r.copyDirectory (room + 1) source target s =
        Step.seq (r.copyEntries room source target entries) made := by
      rw [copyDirectory_succ room (hlist.trans hbase), Step.seq, makeCopy_eq, hmade.makes]
      rfl
    have hall : ReplicatesAll base source place entries made
        (Step.seq (r.copyEntries room source target entries) made) := by
      refine replicatesAll_entries (nodup_entries hbase)
        (fun entry hentry => hfs.isName_of_list hbase hentry) ?_ hgrows hmade.isRoot hbelow
        fun entry _ => hmade.empty entry.1
      intro entry hentry t ht hroot hfree
      exact replicates_entry r hfs htemplate hapart ih hsource hreach (by omega) hbase hentry ht
        hroot hbelow hfree
    rw [hseq]
    exact hall.replicates hfs hbase hmade.isRoot.directory hmade.empty

end Runner

end Scaffold
