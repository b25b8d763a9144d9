import Scaffold.Proofs.FileSystem.Spots

set_option autoImplicit false

/-! # File systems that agree

Two file systems *agree* if they have the same directories and files, and the files hold the same
bytes except at certain places. Where a path leads, what can be listed and made, and what stands in
the way of writing depends on the directories and files alone. So file systems that agree are read
alike, but for the bytes of the files that differ, and they agree still after the same changes. -/

namespace Scaffold

namespace FileSystem

/-- The file systems have the same directories and files, and they hold the same but for the places
    that may differ. -/
structure Agree (differing : List String → Prop) (s t : FileSystem) : Prop where
  workDir : t.workDir = s.workDir
  kind : ∀ place, t.kind? place = s.kind? place
  lookup : ∀ place, ¬ differing place → t.lookup place = s.lookup place

/-- The path text leads to none of the places. -/
def Avoids (fs : FileSystem) (differing : List String → Prop) (path : String) : Prop :=
  ∀ place, fs.resolve path = .ok (.found place) → ¬ differing place

theorem avoids_of_spot {fs : FileSystem} {differing : List String → Prop} {path : String}
    (h : ¬ differing (fs.spot path)) : fs.Avoids differing path := by
  intro place hplace
  have hspot : place = fs.spot path := eq_spot_of_resolve hplace
  rwa [hspot]

namespace Agree

variable {s t : FileSystem} {differing : List String → Prop}

theorem refl (differing : List String → Prop) (s : FileSystem) : Agree differing s s :=
  ⟨rfl, fun _ => rfl, fun _ _ => rfl⟩

theorem of_lookup (hworkDir : t.workDir = s.workDir)
    (h : ∀ place, t.lookup place = s.lookup place) : Agree differing s t :=
  ⟨hworkDir, fun place => kind?_congr (h place), fun place _ => h place⟩

theorem symm (h : Agree differing s t) : Agree differing t s :=
  ⟨h.workDir.symm, fun place => (h.kind place).symm, fun place hplace => (h.lookup place hplace).symm⟩

theorem mono {differing' : List String → Prop} (h : Agree differing s t)
    (hsub : ∀ place, differing place → differing' place) : Agree differing' s t :=
  ⟨h.workDir, h.kind, fun place hplace => h.lookup place fun hdiffering => hplace (hsub _ hdiffering)⟩

theorem directory_iff (h : Agree differing s t) {place : List String} :
    t.lookup place = some .directory ↔ s.lookup place = some .directory := by
  rw [← kind?_eq_directory_iff, h.kind, kind?_eq_directory_iff]

theorem none_iff (h : Agree differing s t) {place : List String} :
    t.lookup place = none ↔ s.lookup place = none := by
  rw [← kind?_eq_none_iff, h.kind, kind?_eq_none_iff]

theorem exists_file (h : Agree differing s t) {place : List String} {bytes : ByteArray}
    (hs : s.lookup place = some (.file bytes)) :
    ∃ bytes', t.lookup place = some (.file bytes') := by
  rw [← kind?_eq_file_iff, h.kind, kind?_eq_file_iff]
  exact ⟨bytes, hs⟩

theorem wellFormed (h : Agree differing s t) (hs : s.WellFormed) : t.WellFormed := by
  refine ⟨?_, fun place hplace => hs.isName place fun hnone => hplace (h.none_iff.2 hnone)⟩
  rw [h.workDir, h.directory_iff]
  exact hs.workDir

/-! ## Following paths -/

theorem start_eq (h : Agree differing s t) (path : String) : t.start path = s.start path :=
  start_congr h.workDir path

theorem follow_eq (h : Agree differing s t) (here pieces : List String) :
    t.follow here pieces = s.follow here pieces := by
  fun_induction s.follow here pieces with
  | case1 here => rfl
  | case2 here piece rest hhere => rw [follow_cons_of_lookup_none (h.none_iff.2 hhere)]
  | case3 here piece rest bytes hhere =>
    obtain ⟨bytes', hthere⟩ := h.exists_file hhere
    rw [follow_cons_of_lookup_file hthere]
  | case4 here rest hhere ih => rw [follow_dot (h.directory_iff.2 hhere), ih]
  | case5 here rest hhere hdot ih => rw [follow_parent (h.directory_iff.2 hhere), ih]
  | case6 here name rest hhere hdot hparent hlong =>
    rw [follow_long (h.directory_iff.2 hhere) ⟨hdot, hparent⟩ hlong]
  | case7 here name rest hhere hdot hparent hshort e hentry ih =>
    have hthere : t.lookup (here ++ [name]) ≠ none := fun hnone => by
      simp [h.none_iff.1 hnone] at hentry
    rw [follow_name (h.directory_iff.2 hhere) ⟨hdot, hparent⟩ hshort hthere, ih]
  | case8 here name rest hhere hdot hparent hshort hentry hrest =>
    rw [follow_missing (h.directory_iff.2 hhere) ⟨hdot, hparent⟩ hshort (h.none_iff.2 hentry),
      if_pos hrest]
  | case9 here name rest hhere hdot hparent hshort hentry hrest =>
    rw [follow_missing (h.directory_iff.2 hhere) ⟨hdot, hparent⟩ hshort (h.none_iff.2 hentry),
      if_neg hrest]

theorem resolvePieces_eq (h : Agree differing s t) (path : String) (pieces : List String) :
    t.resolvePieces path pieces = s.resolvePieces path pieces := by
  unfold resolvePieces
  rw [← start, ← start, h.start_eq, h.follow_eq]

theorem resolve_eq (h : Agree differing s t) (path : String) : t.resolve path = s.resolve path :=
  h.resolvePieces_eq path _

theorem opens_iff (h : Agree differing s t) {path : String} {place : List String} :
    t.Opens path place ↔ s.Opens path place := by
  have hopens : ∀ {s t : FileSystem}, Agree differing s t → s.Opens path place →
      t.Opens path place := by
    intro s t h hopens
    cases hopens with
    | file hresolve hfile =>
      obtain ⟨bytes', hthere⟩ := h.exists_file hfile
      exact .file ((h.resolve_eq path).trans hresolve) hthere
    | free hresolve => exact .free ((h.resolve_eq path).trans hresolve)
  exact ⟨hopens h.symm, hopens h⟩

/-! ## Looking -/

theorem isThere_eq (h : Agree differing s t) (path : String) :
    t.isThere path = s.isThere path := by
  rw [Bool.eq_iff_iff, isThere_iff, isThere_iff, h.resolve_eq]
  simp only [ne_eq, h.none_iff]

theorem isDirectory_eq (h : Agree differing s t) (path : String) :
    t.isDirectory path = s.isDirectory path := by
  rw [Bool.eq_iff_iff, isDirectory_iff, isDirectory_iff]
  simp only [LeadsTo, h.start_eq, h.follow_eq, h.directory_iff]

theorem list_eq (h : Agree differing s t) (path : String) : t.list path = s.list path :=
  list_congr (h.resolve_eq path) fun place _ rest => h.kind (place ++ rest)

/-- A file is read alike unless it is one of those that may differ. -/
theorem read_eq (h : Agree differing s t) {path : String} (hpath : s.Avoids differing path) :
    t.read path = s.read path := by
  unfold read
  rw [h.resolve_eq]
  cases hresolve : s.resolve path with
  | error cause => rfl
  | ok target =>
    cases target with
    | free directory name => rfl
    | found place =>
      dsimp only
      rw [h.lookup place (hpath place hresolve)]

theorem isFile_eq (h : Agree differing s t) (path : String) : t.isFile path = s.isFile path := by
  unfold isFile entry?
  rw [h.resolve_eq]
  cases s.resolve path with
  | error cause => rfl
  | ok target =>
    cases target with
    | free directory name => rfl
    | found place =>
      dsimp only
      cases hs : s.lookup place with
      | none => rw [h.none_iff.2 hs]
      | some e =>
        cases e with
        | directory => rw [h.directory_iff.2 hs]
        | file bytes =>
          obtain ⟨bytes', ht⟩ := h.exists_file hs
          rw [ht]

/-! ## The same change -/

variable {s' t' : FileSystem} {place : List String} {e : Entry}

/-- Something that is put at one place shows there in both file systems. -/
theorem of_put (h : Agree differing s t) (hs' : s'.workDir = s.workDir) (ht' : t'.workDir = t.workDir)
    (hs : ∀ other, s'.lookup other = if other = place then some e else s.lookup other)
    (ht : ∀ other, t'.lookup other = if other = place then some e else t.lookup other) :
    Agree differing s' t' := by
  refine ⟨ht'.trans (h.workDir.trans hs'.symm), fun other => ?_, fun other hother => ?_⟩
  · unfold kind?
    rw [hs, ht]
    split_ifs
    · rfl
    · exact h.kind other
  · rw [hs, ht, h.lookup other hother]

theorem of_writes {bytes : ByteArray} (h : Agree differing s t) (hs : Writes place bytes s s')
    (ht : Writes place bytes t t') : Agree differing s' t' :=
  h.of_put hs.workDir ht.workDir hs.lookup ht.lookup

/-- A file whose bytes are replaced in one of them is one more that may differ. -/
theorem replace {old bytes : ByteArray} (h : Agree differing s t)
    (hfile : s.lookup place = some (.file old)) (ht : Writes place bytes t t') :
    Agree (fun other => differing other ∨ other = place) s t' := by
  refine ⟨ht.workDir.trans h.workDir, fun other => ?_, fun other hother => ?_⟩
  · by_cases hsame : other = place
    · unfold kind?
      rw [hsame, ht.lookup_self, hfile]
      rfl
    · rw [kind?_congr (ht.lookup_of_ne hsame), h.kind]
  · rw [not_or] at hother
    rw [ht.lookup_of_ne hother.2, h.lookup other hother.1]

/-- Other bytes in a file are all that makes the difference. -/
theorem write_self {path : String} {old : ByteArray} (hread : s.read path = .ok old)
    (bytes : ByteArray) :
    Agree (· = s.spot path) s (s.write path bytes).2 ∧
      (s.write path bytes).2.read path = .ok bytes := by
  obtain ⟨place, hplace, hfile⟩ := read_eq_ok_iff.1 hread
  have hspot : place = s.spot path := eq_spot_of_resolve hplace
  have hopens : s.Opens path place := .file hplace hfile
  have hwrites := hopens.writes_put bytes
  have hagree := (refl (fun _ => False) s).replace hfile hwrites
  rw [write_of_file hplace hfile bytes]
  constructor
  · refine hagree.mono fun other hother => ?_
    rw [← hspot]
    exact hother.resolve_left id
  · exact read_eq_ok_iff.2 ⟨place, (hagree.resolve_eq path).trans hplace, hwrites.lookup_self⟩

end Agree

/-- The same comes of two changes, and the file systems agree after them. -/
structure AgreeAfter (differing : List String → Prop) (first second : Change) : Prop where
  result : second.1 = first.1
  agree : Agree differing first.2 second.2

theorem AgreeAfter.cases {differing : List String → Prop} {first second : Change}
    (h : AgreeAfter differing first second) :
    (∃ s t, first = (.ok (), s) ∧ second = (.ok (), t) ∧ Agree differing s t) ∨
      ∃ cause s t, first = (.error cause, s) ∧ second = (.error cause, t) ∧
        Agree differing s t := by
  obtain ⟨hresult, hagree⟩ := h
  rcases first with ⟨cause | _, s⟩
  · exact Or.inr ⟨cause, s, second.2, rfl, Prod.ext hresult rfl, hagree⟩
  · exact Or.inl ⟨s, second.2, rfl, Prod.ext hresult rfl, hagree⟩

namespace Agree

variable {s t : FileSystem} {differing : List String → Prop}

theorem fails (h : Agree differing s t) (cause : Cause) :
    AgreeAfter differing (.error cause, s) (.error cause, t) :=
  ⟨rfl, h⟩

theorem makeDirectory (h : Agree differing s t) (path : String) :
    AgreeAfter differing (s.makeDirectory path) (t.makeDirectory path) := by
  unfold FileSystem.makeDirectory
  have hresolve := h.resolvePieces_eq path (pieces path)
  rw [hresolve]
  cases hs : s.resolvePieces path (pieces path) with
  | error cause => exact h.fails cause
  | ok target =>
    cases target with
    | found place => exact h.fails _
    | free directory name =>
      have hfree := (isFree_of_resolvePieces hs).2
      have hfree' := (isFree_of_resolvePieces (hresolve.trans hs)).2
      exact ⟨rfl, h.of_put rfl rfl hfree.lookup_put_directory hfree'.lookup_put_directory⟩

theorem makeLineage (h : Agree differing s t) (lineage : List String) :
    AgreeAfter differing (s.makeLineage lineage) (t.makeLineage lineage) := by
  induction lineage with
  | nil => exact h.fails _
  | cons path ancestors ih =>
    unfold FileSystem.makeLineage
    by_cases hempty : path = ""
    · rw [if_pos hempty, if_pos hempty]
      exact ⟨rfl, h⟩
    rw [if_neg hempty, if_neg hempty, h.isDirectory_eq]
    rcases (h.makeDirectory path).cases with
      ⟨made, made', hs, ht, hmade⟩ | ⟨cause, made, made', hs, ht, -⟩
    · rw [hs, ht]
      exact ⟨rfl, hmade⟩
    rw [hs, ht]
    dsimp only
    by_cases hcause : cause = .system .notFound
    swap
    · rw [if_neg hcause, if_neg hcause]
      exact ⟨rfl, h⟩
    rw [if_pos hcause, if_pos hcause]
    rcases ih.cases with ⟨below, below', hs, ht, hbelow⟩ | ⟨cause, below, below', hs, ht, hbelow⟩
    swap
    · rw [hs, ht]
      exact hbelow.fails cause
    -- the ancestors are there, and the path is tried once more
    rw [hs, ht]
    dsimp only
    rw [hbelow.isDirectory_eq]
    rcases (hbelow.makeDirectory path).cases with
      ⟨made, made', hs, ht, hmade⟩ | ⟨cause, made, made', hs, ht, -⟩
    · rw [hs, ht]
      exact ⟨rfl, hmade⟩
    · rw [hs, ht]
      exact ⟨rfl, hbelow⟩

theorem makeDirectories (h : Agree differing s t) (path : String) :
    AgreeAfter differing (s.makeDirectories path) (t.makeDirectories path) :=
  h.makeLineage _

theorem makeParent (h : Agree differing s t) (path : String) :
    AgreeAfter differing (s.makeParent path) (t.makeParent path) := by
  unfold FileSystem.makeParent
  split
  · exact h.makeDirectories _
  · exact ⟨rfl, h⟩

theorem write (h : Agree differing s t) (path : String) (bytes : ByteArray) :
    AgreeAfter differing (s.write path bytes) (t.write path bytes) := by
  have hwrite : ∀ place, s.Opens path place → AgreeAfter differing
      (.ok (), s.put place (.file bytes)) (.ok (), t.put place (.file bytes)) := fun place hs =>
    ⟨rfl, h.of_writes (hs.writes_put bytes) ((h.opens_iff.2 hs).writes_put bytes)⟩
  unfold FileSystem.write
  rw [h.resolve_eq]
  cases hresolve : s.resolve path with
  | error cause => exact h.fails cause
  | ok target =>
    cases target with
    | free directory name => exact hwrite _ (.free hresolve)
    | found place =>
      dsimp only
      cases hs : s.lookup place with
      | none =>
        rw [h.none_iff.2 hs]
        exact h.fails _
      | some e =>
        cases e with
        | directory =>
          rw [h.directory_iff.2 hs]
          exact h.fails _
        | file old =>
          obtain ⟨old', ht⟩ := h.exists_file hs
          rw [ht]
          exact hwrite place (.file hresolve hs)

theorem copy (h : Agree differing s t) {source : String} (hsource : s.Avoids differing source)
    (target : String) : AgreeAfter differing (s.copy source target) (t.copy source target) := by
  unfold FileSystem.copy
  rw [h.read_eq hsource]
  cases hread : s.read source with
  | error cause => exact h.fails cause
  | ok bytes =>
    have hworkDir := workDir_write s target .empty
    rcases (h.write target .empty).cases with
      ⟨opened, opened', hs, ht, hopened⟩ | ⟨cause, opened, opened', hs, ht, hopened⟩
    · rw [hs] at hworkDir
      -- the source was there before the target was opened
      have hopenedSource : opened.Avoids differing source := by
        obtain ⟨place, hplace, -⟩ := read_eq_ok_iff.1 hread
        have hspot : place = s.spot source := eq_spot_of_resolve hplace
        refine avoids_of_spot ?_
        rw [spot_congr hworkDir, ← hspot]
        exact hsource place hplace
      rw [hs, ht]
      dsimp only
      rw [hopened.read_eq hopenedSource]
      cases opened.read source with
      | error cause => exact hopened.fails cause
      | ok bytes => exact hopened.write target bytes
    · rw [hs, ht]
      exact hopened.fails cause

end Agree

end FileSystem

end Scaffold
