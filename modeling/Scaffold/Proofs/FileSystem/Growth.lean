import Scaffold.Proofs.FileSystem.Following

set_option autoImplicit false

/-! # Growing file systems

Nothing that a run does takes away a directory or a file: directories stay directories, files stay
files, and only what the files hold may change. Such growth keeps what a path leads to, and it keeps
every fault but that of something missing (`resolvePieces_of_growsBelow`). So what was there once is
there for good, and what stood in the way once stands in the way for good. -/

namespace Scaffold

namespace FileSystem

variable {s t u : FileSystem} {top : List String}

/-- From `s` to `t` directories stay directories and files stay files, and what is not below the
    place `top` stays as it is. -/
structure GrowsBelow (top : List String) (s t : FileSystem) : Prop where
  workDir : t.workDir = s.workDir
  directory : ∀ place, s.lookup place = some .directory → t.lookup place = some .directory
  file : ∀ place bytes, s.lookup place = some (.file bytes) →
    ∃ bytes', t.lookup place = some (.file bytes')
  outside : ∀ place, ¬ top <+: place → t.lookup place = s.lookup place

/-- From `s` to `t` nothing changes but that directories are added below the place `top`. -/
structure AddsDirectories (top : List String) (s t : FileSystem) : Prop where
  workDir : t.workDir = s.workDir
  kept : ∀ place, s.lookup place ≠ none → t.lookup place = s.lookup place
  gained : ∀ place, t.lookup place ≠ s.lookup place →
    t.lookup place = some .directory ∧ top <+: place

/-- From `s` to `t` nothing that was there changes, and what comes to be does so below `top`. -/
structure AddsBelow (top : List String) (s t : FileSystem) : Prop where
  workDir : t.workDir = s.workDir
  kept : ∀ place, s.lookup place ≠ none → t.lookup place = s.lookup place
  outside : ∀ place, ¬ top <+: place → t.lookup place = s.lookup place

/-- From `s` to `t` nothing changes but that a place comes to hold a file with the bytes. -/
structure Writes (place : List String) (bytes : ByteArray) (s t : FileSystem) : Prop where
  workDir : t.workDir = s.workDir
  lookup : ∀ other, t.lookup other = if other = place then some (.file bytes) else s.lookup other

/-! ## Growth -/

theorem GrowsBelow.refl (top : List String) (s : FileSystem) : GrowsBelow top s s :=
  ⟨rfl, fun _ h => h, fun _ bytes h => ⟨bytes, h⟩, fun _ _ => rfl⟩

theorem GrowsBelow.trans (h : GrowsBelow top s t) (h' : GrowsBelow top t u) :
    GrowsBelow top s u := by
  refine ⟨h'.workDir.trans h.workDir, fun place hs => ?_, fun place bytes hs => ?_,
    fun place hplace => ?_⟩
  · exact h'.directory place (h.directory place hs)
  · obtain ⟨bytes', ht⟩ := h.file place bytes hs
    exact h'.file place bytes' ht
  · rw [h'.outside place hplace, h.outside place hplace]

/-- What grows below a place grows below every place above it. -/
theorem GrowsBelow.mono {place : List String} (h : GrowsBelow place s t) (htop : top <+: place) :
    GrowsBelow top s t :=
  ⟨h.workDir, h.directory, h.file, fun other hother =>
    h.outside other fun hbelow => hother (htop.trans hbelow)⟩

/-- Growth somewhere is growth below the root. -/
theorem GrowsBelow.anywhere (h : GrowsBelow top s t) : GrowsBelow [] s t :=
  h.mono List.nil_prefix

theorem GrowsBelow.lookup_ne_none (h : GrowsBelow top s t) {place : List String}
    (hs : s.lookup place ≠ none) : t.lookup place ≠ none := by
  obtain ⟨e, hs⟩ := Option.ne_none_iff_exists'.1 hs
  cases e with
  | file bytes =>
    obtain ⟨bytes', ht⟩ := h.file place bytes hs
    simp [ht]
  | directory => simp [h.directory place hs]

/-- What is a directory in the end and was there in the beginning was a directory then. -/
theorem GrowsBelow.lookup_of_directory (h : GrowsBelow top s t) {place : List String}
    (hs : s.lookup place ≠ none) (ht : t.lookup place = some .directory) :
    s.lookup place = some .directory := by
  obtain ⟨e, hs⟩ := Option.ne_none_iff_exists'.1 hs
  cases e with
  | file bytes =>
    obtain ⟨bytes', ht'⟩ := h.file place bytes hs
    simp [ht'] at ht
  | directory => exact hs

theorem AddsDirectories.refl (top : List String) (s : FileSystem) : AddsDirectories top s s :=
  ⟨rfl, fun _ _ => rfl, fun _ h => absurd rfl h⟩

theorem AddsDirectories.trans (h : AddsDirectories top s t) (h' : AddsDirectories top t u) :
    AddsDirectories top s u := by
  refine ⟨h'.workDir.trans h.workDir, fun place hs => ?_, fun place hu => ?_⟩
  · have ht := h.kept place hs
    rw [h'.kept place (by rwa [ht]), ht]
  · by_cases ht : u.lookup place = t.lookup place
    · rw [ht] at hu ⊢
      exact h.gained place hu
    · exact h'.gained place ht

theorem AddsDirectories.mono {place : List String} (h : AddsDirectories place s t)
    (htop : top <+: place) : AddsDirectories top s t :=
  ⟨h.workDir, h.kept, fun other hother =>
    ⟨(h.gained other hother).1, htop.trans (h.gained other hother).2⟩⟩

theorem AddsDirectories.growsBelow (h : AddsDirectories top s t) : GrowsBelow top s t := by
  refine ⟨h.workDir, fun place hs => ?_, fun place bytes hs => ?_, fun place hplace => ?_⟩
  · rw [h.kept place (by simp [hs]), hs]
  · exact ⟨bytes, by rw [h.kept place (by simp [hs]), hs]⟩
  · by_contra hne
    exact hplace (h.gained place hne).2

theorem AddsBelow.refl (top : List String) (s : FileSystem) : AddsBelow top s s :=
  ⟨rfl, fun _ _ => rfl, fun _ _ => rfl⟩

theorem AddsBelow.trans (h : AddsBelow top s t) (h' : AddsBelow top t u) : AddsBelow top s u := by
  refine ⟨h'.workDir.trans h.workDir, fun place hs => ?_, fun place hplace => ?_⟩
  · have ht := h.kept place hs
    rw [h'.kept place (by rwa [ht]), ht]
  · rw [h'.outside place hplace, h.outside place hplace]

theorem AddsBelow.growsBelow (h : AddsBelow top s t) : GrowsBelow top s t := by
  refine ⟨h.workDir, fun place hs => ?_, fun place bytes hs => ⟨bytes, ?_⟩, h.outside⟩
  · rw [h.kept place (by simp [hs]), hs]
  · rw [h.kept place (by simp [hs]), hs]

theorem AddsDirectories.addsBelow (h : AddsDirectories top s t) : AddsBelow top s t :=
  ⟨h.workDir, h.kept, h.growsBelow.outside⟩

/-- A file where nothing was only adds to what there is. -/
theorem Writes.addsBelow {place : List String} {bytes : ByteArray} (h : Writes place bytes s t)
    (hplace : s.lookup place = none) (htop : top <+: place) : AddsBelow top s t := by
  refine ⟨h.workDir, fun other hother => ?_, fun other hother => ?_⟩
  · have hne : other ≠ place := by
      rintro rfl
      exact hother hplace
    rw [h.lookup, if_neg hne]
  · have hne : other ≠ place := by
      rintro rfl
      exact hother htop
    rw [h.lookup, if_neg hne]

/-- Files stay what they are when directories are added. -/
theorem AddsDirectories.file_iff (h : AddsDirectories top s t) {place : List String}
    {bytes : ByteArray} :
    t.lookup place = some (.file bytes) ↔ s.lookup place = some (.file bytes) := by
  by_cases hsame : t.lookup place = s.lookup place
  · rw [hsame]
  · have ht := (h.gained place hsame).1
    constructor
    · intro hfile
      simp [ht] at hfile
    · intro hfile
      exact absurd (h.kept place (by simp [hfile])) hsame

theorem Writes.growsBelow {place : List String} {bytes : ByteArray} (h : Writes place bytes s t)
    (hplace : s.lookup place ≠ some .directory) (htop : top <+: place) : GrowsBelow top s t := by
  refine ⟨h.workDir, fun other hs => ?_, fun other bytes' hs => ?_, fun other hother => ?_⟩
  · have hne : other ≠ place := by
      rintro rfl
      exact hplace hs
    rw [h.lookup, if_neg hne, hs]
  · rw [h.lookup]
    split_ifs
    · exact ⟨bytes, rfl⟩
    · exact ⟨bytes', hs⟩
  · have hne : other ≠ place := by
      rintro rfl
      exact hother htop
    rw [h.lookup, if_neg hne]

/-- Of two files written to one place only the second one is left. -/
theorem Writes.trans {place : List String} {bytes bytes' : ByteArray}
    (h : Writes place bytes s t) (h' : Writes place bytes' t u) : Writes place bytes' s u := by
  refine ⟨h'.workDir.trans h.workDir, fun other => ?_⟩
  rw [h'.lookup, h.lookup]
  split_ifs <;> rfl

theorem Writes.lookup_self {place : List String} {bytes : ByteArray} (h : Writes place bytes s t) :
    t.lookup place = some (.file bytes) := by
  rw [h.lookup, if_pos rfl]

theorem Writes.lookup_of_ne {place other : List String} {bytes : ByteArray}
    (h : Writes place bytes s t) (hne : other ≠ place) : t.lookup other = s.lookup other := by
  rw [h.lookup, if_neg hne]

/-! ## What a path leads to -/

theorem start_congr (h : t.workDir = s.workDir) (path : String) : t.start path = s.start path := by
  simp only [start, h]

/-- Where a path leads, and how it fails, stays so, unless something is missing. -/
theorem follow_of_growsBelow (h : GrowsBelow top s t) {here pieces : List String}
    (hfault : s.follow here pieces ≠ .error .notFound)
    (hfree : ∀ directory name, s.follow here pieces ≠ .ok (.free directory name)) :
    t.follow here pieces = s.follow here pieces := by
  fun_induction s.follow here pieces with
  | case1 here => rfl
  | case2 here piece rest hhere => exact absurd rfl hfault
  | case3 here piece rest bytes hhere =>
    obtain ⟨bytes', ht⟩ := h.file here bytes hhere
    rw [follow_cons_of_lookup_file ht]
  | case4 here rest hhere ih =>
    rw [follow_dot (h.directory here hhere), ih hfault hfree]
  | case5 here rest hhere hdot ih =>
    rw [follow_parent (h.directory here hhere), ih hfault hfree]
  | case6 here name rest hhere hdot hparent hlong =>
    -- a name is too long whatever is there
    rw [follow_long (h.directory here hhere) ⟨hdot, hparent⟩ hlong]
  | case7 here name rest hhere hdot hparent hshort e hentry ih =>
    have ht : t.lookup (here ++ [name]) ≠ none := h.lookup_ne_none (by simp [hentry])
    rw [follow_name (h.directory here hhere) ⟨hdot, hparent⟩ hshort ht, ih hfault hfree]
  | case8 here name rest hhere hdot hparent hshort hentry hrest => exact absurd rfl (hfree _ _)
  | case9 here name rest hhere hdot hparent hshort hentry hrest => exact absurd rfl hfault

theorem follow_found_of_growsBelow (h : GrowsBelow top s t) {here pieces place : List String}
    (hs : s.follow here pieces = .ok (.found place)) :
    t.follow here pieces = .ok (.found place) := by
  rw [follow_of_growsBelow h (by simp [hs]) (by simp [hs]), hs]

theorem LeadsTo.of_growsBelow (h : GrowsBelow top s t) {path : String} {place : List String}
    (hs : s.LeadsTo path place) : t.LeadsTo path place := by
  unfold LeadsTo
  rw [start_congr h.workDir]
  exact follow_found_of_growsBelow h hs

/-- A path without parent pieces that leads in the end to a place that was there in the beginning
    led there in the beginning: all that it passes stands above that place. -/
theorem follow_found_of_grown (h : GrowsBelow top s t) {here pieces place : List String}
    (hpieces : ".." ∉ pieces) (ht : t.follow here pieces = .ok (.found place))
    (hplace : s.lookup place ≠ none) : s.follow here pieces = .ok (.found place) := by
  fun_induction t.follow here pieces with
  | case1 here =>
    cases ht
    rfl
  | case4 here rest hhere ih =>
    have hrest : ".." ∉ rest := fun hmem => hpieces (List.mem_cons_of_mem _ hmem)
    have hs : s.lookup here ≠ none := lookup_ne_none_above (below_of_follow hrest ht) hplace
    rw [follow_dot (h.lookup_of_directory hs hhere)]
    exact ih hrest ht
  | case5 here rest hhere hdot ih => exact absurd List.mem_cons_self hpieces
  | case7 here name rest hhere hdot hparent hshort e hentry ih =>
    have hrest : ".." ∉ rest := fun hmem => hpieces (List.mem_cons_of_mem _ hmem)
    have hs : s.lookup (here ++ [name]) ≠ none :=
      lookup_ne_none_above (below_of_follow hrest ht) hplace
    rw [follow_name (lookup_of_append (by simp) hs) ⟨hdot, hparent⟩ hshort hs]
    exact ih hrest ht
  | _ => simp at ht

/-! ## Path texts -/

/-- Whether a path text can be handed to the system at all. -/
def Accepts (path : String) : Prop :=
  '\x00' ∉ path.toList ∧ path ≠ "" ∧ path.utf8ByteSize < pathLimit

theorem resolvePieces_of_accepts {path : String} (h : Accepts path) (fs : FileSystem)
    (pieces : List String) :
    fs.resolvePieces path pieces =
      match fs.follow (fs.start path) pieces with
      | .ok target => .ok target
      | .error fault => .error (.system fault) := by
  obtain ⟨hnull, hempty, hlong⟩ := h
  have hnull : ¬ path.toList.contains '\x00' = true := by simpa using hnull
  exact (if_neg hnull).trans ((if_neg hempty).trans (if_neg (Nat.not_le.2 hlong)))

/-- A path text that the system does not accept fails in the same way everywhere. -/
theorem exists_resolvePieces_of_not_accepts {path : String} (h : ¬ Accepts path) :
    ∃ cause, (path ≠ "" → cause ≠ .system .notFound) ∧
      ∀ (fs : FileSystem) (pieces : List String), fs.resolvePieces path pieces = .error cause := by
  unfold resolvePieces
  by_cases hnull : path.toList.contains '\x00' = true
  · exact ⟨.nullInPath, by simp, fun fs pieces => by rw [if_pos hnull]⟩
  by_cases hempty : path = ""
  · exact ⟨.system .notFound, by simp [hempty], fun fs pieces => by
      rw [if_neg hnull, if_pos hempty]⟩
  by_cases hlong : pathLimit ≤ path.utf8ByteSize
  · refine ⟨.system .nameTooLong, by simp, fun fs pieces => ?_⟩
    rw [if_neg hnull, if_neg hempty, if_pos hlong]
  · exact absurd ⟨by simpa using hnull, hempty, Nat.not_le.1 hlong⟩ h

theorem resolvePieces_eq_ok_iff {fs : FileSystem} {path : String} {pieces : List String}
    {target : Target} :
    fs.resolvePieces path pieces = .ok target ↔
      Accepts path ∧ fs.follow (fs.start path) pieces = .ok target := by
  by_cases h : Accepts path
  · rw [resolvePieces_of_accepts h]
    cases fs.follow (fs.start path) pieces <;> simp [h]
  · obtain ⟨cause, -, hcause⟩ := exists_resolvePieces_of_not_accepts h
    simp [hcause, h]

theorem resolve_eq_ok_iff {fs : FileSystem} {path : String} {target : Target} :
    fs.resolve path = .ok target ↔
      Accepts path ∧ fs.follow (fs.start path) (strictPieces path) = .ok target :=
  resolvePieces_eq_ok_iff

theorem resolvePieces_of_growsBelow (h : GrowsBelow top s t) {path : String}
    {pieces : List String} (hfault : s.resolvePieces path pieces ≠ .error (.system .notFound))
    (hfree : ∀ directory name, s.resolvePieces path pieces ≠ .ok (.free directory name)) :
    t.resolvePieces path pieces = s.resolvePieces path pieces := by
  by_cases haccepts : Accepts path
  · rw [resolvePieces_of_accepts haccepts] at hfault hfree
    rw [resolvePieces_of_accepts haccepts, resolvePieces_of_accepts haccepts,
      start_congr h.workDir]
    cases hs : s.follow (s.start path) pieces with
    | error fault =>
      rw [follow_of_growsBelow h (fun hs' => ?_) (by simp [hs]), hs]
      rw [hs'] at hfault
      exact hfault rfl
    | ok target =>
      cases target with
      | found place => rw [follow_found_of_growsBelow h hs]
      | free directory name =>
        rw [hs] at hfree
        exact absurd rfl (hfree directory name)
  · obtain ⟨cause, -, hcause⟩ := exists_resolvePieces_of_not_accepts haccepts
    rw [hcause, hcause]

theorem resolve_found_of_growsBelow (h : GrowsBelow top s t) {path : String} {place : List String}
    (hs : s.resolve path = .ok (.found place)) : t.resolve path = .ok (.found place) := by
  have hs' : s.resolvePieces path (strictPieces path) = .ok (.found place) := hs
  unfold resolve
  rw [resolvePieces_of_growsBelow h (by simp [hs']) (by simp [hs']), hs']

/-! ## Looking -/

theorem strictPieces_eq (path : String) :
    strictPieces path = pieces path ∨ strictPieces path = pieces path ++ ["."] := by
  unfold strictPieces
  split_ifs
  · exact Or.inr rfl
  · exact Or.inl rfl

theorem isThere_iff {fs : FileSystem} {path : String} :
    fs.isThere path = true ↔
      ∃ place, fs.resolve path = .ok (.found place) ∧ fs.lookup place ≠ none := by
  unfold isThere entry?
  split
  · next place hplace => simp [hplace, Option.isSome_iff_ne_none]
  · next hother =>
    constructor
    · simp
    · rintro ⟨place, hplace, -⟩
      exact absurd hplace (hother place)

/-- What is there stays there. -/
theorem isThere_of_growsBelow (h : GrowsBelow top s t) {path : String}
    (hs : s.isThere path = true) : t.isThere path = true := by
  obtain ⟨place, hplace, hentry⟩ := isThere_iff.1 hs
  exact isThere_iff.2 ⟨place, resolve_found_of_growsBelow h hplace, h.lookup_ne_none hentry⟩

theorem isDirectory_iff_resolve {fs : FileSystem} {path : String} :
    fs.isDirectory path = true ↔
      ∃ place, fs.resolve path = .ok (.found place) ∧ fs.lookup place = some .directory := by
  unfold isDirectory entry?
  cases hpath : fs.resolve path with
  | error cause => simp
  | ok target =>
    cases target with
    | free directory name => simp
    | found place => rcases hplace : fs.lookup place with _ | _ | _ <;> simp [hplace]

theorem isDirectory_iff {fs : FileSystem} {path : String} :
    fs.isDirectory path = true ↔
      Accepts path ∧ ∃ place, fs.LeadsTo path place ∧ fs.lookup place = some .directory := by
  rw [isDirectory_iff_resolve]
  simp only [resolve_eq_ok_iff, and_assoc, exists_and_left, LeadsTo]
  refine and_congr_right fun _ => exists_congr fun place => and_congr_left fun hplace => ?_
  rcases strictPieces_eq path with hstrict | hstrict
  · rw [hstrict]
  · -- a slash at the end asks for a directory, which the place is
    rw [hstrict]
    constructor
    · intro h
      obtain ⟨place', hplace', hdirectory, hdot⟩ := exists_found_of_follow_append h
      rw [follow_dot hdirectory] at hdot
      rw [hplace']
      exact hdot
    · intro h
      rw [follow_append_of_found h, follow_dot hplace]
      rfl

theorem isDirectory_of_growsBelow (h : GrowsBelow top s t) {path : String}
    (hs : s.isDirectory path = true) : t.isDirectory path = true := by
  obtain ⟨haccepts, place, hplace, hdirectory⟩ := isDirectory_iff.1 hs
  exact isDirectory_iff.2 ⟨haccepts, place, hplace.of_growsBelow h, h.directory place hdirectory⟩

end FileSystem

end Scaffold
