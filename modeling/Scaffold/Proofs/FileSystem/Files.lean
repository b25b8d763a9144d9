import Scaffold.Proofs.FileSystem.Directories

set_option autoImplicit false

/-! # Reading and writing files

A file can be written where a path leads to a file or to a free name, and then it changes what that
place holds and nothing else; where writing fails nothing changes (`write_cases`). A copy opens its
target before it reads its source, but it fails as a whole or succeeds as a whole all the same
(`copy_cases`), since a file that was there when it was opened for reading is there still. -/

namespace Scaffold

namespace FileSystem

variable {s t u : FileSystem} {top : List String}

/-- A file can be written at the path, and it stands at the place then. -/
inductive Opens (fs : FileSystem) (path : String) : List String → Prop
  | file {place : List String} {bytes : ByteArray} (hresolve : fs.resolve path = .ok (.found place))
      (hfile : fs.lookup place = some (.file bytes)) : Opens fs path place
  | free {directory : List String} {name : String}
      (hresolve : fs.resolve path = .ok (.free directory name)) :
      Opens fs path (directory ++ [name])

/-- What can be opened is no directory. -/
theorem Opens.lookup_ne_directory {fs : FileSystem} {path : String} {place : List String}
    (h : fs.Opens path place) : fs.lookup place ≠ some .directory := by
  cases h with
  | file hresolve hfile => simp [hfile]
  | free hresolve =>
    have hfree := (isFree_of_resolvePieces hresolve).2
    simp [hfree.lookup_place]

/-- Once something is at the place, the path leads there. -/
theorem Opens.resolve_of_growsBelow {path : String} {place : List String} (h : s.Opens path place)
    (hgrows : GrowsBelow top s t) (hthere : t.lookup place ≠ none) :
    t.resolve path = .ok (.found place) := by
  cases h with
  | file hresolve hfile => exact resolve_found_of_growsBelow hgrows hresolve
  | free hresolve =>
    obtain ⟨haccepts, hfree⟩ := isFree_of_resolvePieces hresolve
    refine resolve_eq_ok_iff.2 ⟨haccepts, ?_⟩
    rw [start_congr hgrows.workDir]
    exact hfree.follow_of_growsBelow hgrows hthere

/-- A file that is put where one can be opened shows there and nowhere else. -/
theorem Opens.writes_put {fs : FileSystem} {path : String} {place : List String}
    (h : fs.Opens path place) (bytes : ByteArray) :
    Writes place bytes fs (fs.put place (.file bytes)) := by
  have hplace := h.lookup_ne_directory
  obtain ⟨directory, name, rfl, hdirectory⟩ : ∃ directory name, place = directory ++ [name] ∧
      fs.lookup directory = some .directory := by
    cases h with
    | free hresolve =>
      exact ⟨_, _, rfl, (isFree_of_resolvePieces hresolve).2.lookup_directory⟩
    | file hresolve hfile =>
      rcases List.eq_nil_or_concat place with rfl | ⟨directory, name, rfl⟩
      · exact absurd (lookup_nil fs) hplace
      · rw [List.concat_eq_append] at hfile ⊢
        have hthere : fs.lookup (directory ++ [name]) ≠ none := by simp [hfile]
        exact ⟨directory, name, rfl, lookup_of_append (List.cons_ne_nil name []) hthere⟩
  exact ⟨rfl, lookup_put fs hdirectory hplace rfl⟩

/-- A file that was written is there after any growth, and the path leads to it. -/
theorem Opens.exists_file_of_writes {path : String} {place : List String} {bytes : ByteArray}
    (h : s.Opens path place) (hwrites : Writes place bytes s t) (hgrows : GrowsBelow top t u) :
    ∃ old, u.lookup place = some (.file old) ∧ u.resolve path = .ok (.found place) := by
  have hwritten := hwrites.growsBelow h.lookup_ne_directory List.nil_prefix
  obtain ⟨old, hfile⟩ := hgrows.file place bytes hwrites.lookup_self
  have hthere : u.lookup place ≠ none := by simp [hfile]
  exact ⟨old, hfile, h.resolve_of_growsBelow (hwritten.trans hgrows.anywhere) hthere⟩

/-! ## Reading -/

theorem read_eq_ok_iff {fs : FileSystem} {path : String} {bytes : ByteArray} :
    fs.read path = .ok bytes ↔
      ∃ place, fs.resolve path = .ok (.found place) ∧ fs.lookup place = some (.file bytes) := by
  unfold read
  cases fs.resolve path with
  | error cause => simp
  | ok target =>
    cases target with
    | free directory name => simp
    | found place => rcases hplace : fs.lookup place with _ | _ | _ <;> simp [hplace]

theorem isFile_iff {fs : FileSystem} {path : String} :
    fs.isFile path = true ↔ ∃ bytes, fs.read path = .ok bytes := by
  unfold isFile entry? read
  cases fs.resolve path with
  | error cause => simp
  | ok target =>
    cases target with
    | free directory name => simp
    | found place => rcases hplace : fs.lookup place with _ | _ | _ <;> simp [hplace]

/-- A file that can be read can be read after any growth, though it may hold something else. -/
theorem exists_read_of_growsBelow (h : GrowsBelow top s t) {path : String} {bytes : ByteArray}
    (hs : s.read path = .ok bytes) : ∃ bytes', t.read path = .ok bytes' := by
  obtain ⟨place, hplace, hfile⟩ := read_eq_ok_iff.1 hs
  obtain ⟨bytes', ht⟩ := h.file place bytes hfile
  exact ⟨bytes', read_eq_ok_iff.2 ⟨place, resolve_found_of_growsBelow h hplace, ht⟩⟩

/-- Added directories change nothing about a file that can be read. -/
theorem read_of_addsDirectories (h : AddsDirectories top s t) {path : String} {bytes : ByteArray}
    (hs : s.read path = .ok bytes) : t.read path = .ok bytes := by
  obtain ⟨place, hplace, hfile⟩ := read_eq_ok_iff.1 hs
  exact read_eq_ok_iff.2
    ⟨place, resolve_found_of_growsBelow h.growsBelow hplace, h.file_iff.2 hfile⟩

theorem fromUTF8?_eq_some_iff {bytes : ByteArray} {text : String} :
    String.fromUTF8? bytes = some text ↔ bytes = text.toUTF8 := by
  unfold String.fromUTF8?
  constructor
  · intro h
    split at h
    · obtain rfl := Option.some.inj h
      rfl
    · simp at h
  · rintro rfl
    exact dif_pos text.isValidUTF8

theorem readText_eq_ok_iff {fs : FileSystem} {path text : String} :
    fs.readText path = .ok text ↔ fs.read path = .ok text.toUTF8 := by
  unfold readText
  cases fs.read path with
  | error cause => simp
  | ok bytes =>
    rw [Except.ok.injEq, ← fromUTF8?_eq_some_iff]
    cases htext : String.fromUTF8? bytes <;> simp [htext]

theorem exists_read_of_readText {fs : FileSystem} {path text : String}
    (h : fs.readText path = .ok text) : ∃ bytes, fs.read path = .ok bytes :=
  ⟨_, readText_eq_ok_iff.1 h⟩

theorem readText_congr {path : String} (h : t.read path = s.read path) :
    t.readText path = s.readText path := by
  unfold readText
  rw [h]

/-! ## Writing -/

theorem write_cases (fs : FileSystem) (path : String) (bytes : ByteArray) :
    (∃ cause, fs.write path bytes = (.error cause, fs)) ∨
      ∃ place, fs.Opens path place ∧
        fs.write path bytes = (.ok (), fs.put place (.file bytes)) := by
  unfold write
  cases hpath : fs.resolve path with
  | error cause => exact Or.inl ⟨cause, rfl⟩
  | ok target =>
    cases target with
    | free directory name => exact Or.inr ⟨_, .free hpath, rfl⟩
    | found place =>
      cases hplace : fs.lookup place with
      | none => exact Or.inl ⟨.system .isDirectory, by simp only [hplace]⟩
      | some e =>
        cases e with
        | directory => exact Or.inl ⟨.system .isDirectory, by simp only [hplace]⟩
        | file old => exact Or.inr ⟨place, .file hpath hplace, by simp only [hplace]⟩

theorem workDir_write (fs : FileSystem) (path : String) (bytes : ByteArray) :
    (fs.write path bytes).2.workDir = fs.workDir := by
  rcases write_cases fs path bytes with ⟨cause, hwrite⟩ | ⟨place, -, hwrite⟩
  · rw [hwrite]
  · rw [hwrite]
    rfl

/-- A file that is there can be written. -/
theorem write_of_file {fs : FileSystem} {path : String} {place : List String} {old : ByteArray}
    (hresolve : fs.resolve path = .ok (.found place)) (hfile : fs.lookup place = some (.file old))
    (bytes : ByteArray) : fs.write path bytes = (.ok (), fs.put place (.file bytes)) := by
  unfold write
  simp only [hresolve, hfile]

theorem write_of_opens {fs : FileSystem} {path : String} {place : List String}
    (h : fs.Opens path place) (bytes : ByteArray) :
    fs.write path bytes = (.ok (), fs.put place (.file bytes)) := by
  cases h with
  | file hresolve hfile => exact write_of_file hresolve hfile bytes
  | free hresolve =>
    unfold write
    rw [hresolve]

/-- A directory cannot be written. -/
theorem write_of_directory {fs : FileSystem} {path : String} {place : List String}
    (hresolve : fs.resolve path = .ok (.found place)) (hplace : fs.lookup place = some .directory)
    (bytes : ByteArray) : fs.write path bytes = (.error (.system .isDirectory), fs) := by
  unfold write
  simp only [hresolve, hplace]

theorem write_of_error {fs : FileSystem} {path : String} {cause : Cause}
    (hresolve : fs.resolve path = .error cause) (bytes : ByteArray) :
    fs.write path bytes = (.error cause, fs) := by
  unfold write
  rw [hresolve]

/-- What stands in the way of writing stays there, unless something is missing. -/
theorem exists_write_of_growsBelow (hgrows : GrowsBelow top s t) {path : String}
    {bytes : ByteArray} {cause : Cause} (h : s.write path bytes = (.error cause, s))
    (hfault : s.resolve path ≠ .error (.system .notFound))
    (hstart : s.lookup (s.start path) ≠ none) (bytes' : ByteArray) :
    ∃ cause', t.write path bytes' = (.error cause', t) := by
  cases hpath : s.resolve path with
  | error other =>
    have hsame : t.resolve path = s.resolve path :=
      resolvePieces_of_growsBelow hgrows hfault fun directory name hfree => by
        rw [show s.resolve path = .ok (.free directory name) from hfree] at hpath
        simp at hpath
    exact ⟨other, write_of_error (hsame.trans hpath) bytes'⟩
  | ok target =>
    cases target with
    | free directory name =>
      unfold write at h
      simp [hpath] at h
    | found place =>
      have hthere : s.lookup place ≠ none :=
        lookup_ne_none_of_follow hstart (resolve_eq_ok_iff.1 hpath).2
      obtain ⟨e, hplace⟩ := Option.ne_none_iff_exists'.1 hthere
      cases e with
      | file old =>
        rw [write_of_file hpath hplace] at h
        simp at h
      | directory =>
        exact ⟨_, write_of_directory (resolve_found_of_growsBelow hgrows hpath)
          (hgrows.directory place hplace) bytes'⟩

/-! ## Copying -/

theorem copy_of_read_error {fs : FileSystem} {source : String} {cause : Cause}
    (h : fs.read source = .error cause) (target : String) :
    fs.copy source target = (.error cause, fs) := by
  unfold copy
  rw [h]

theorem copy_of_write_error {fs : FileSystem} {source target : String} {bytes : ByteArray}
    {cause : Cause} (hread : fs.read source = .ok bytes)
    (hwrite : fs.write target .empty = (.error cause, fs)) :
    fs.copy source target = (.error cause, fs) := by
  unfold copy
  rw [hread, hwrite]

/-- A copy that opens its target puts there what the source holds once the target is empty. -/
theorem copy_of_opens {fs : FileSystem} {source target : String} {place : List String}
    {old : ByteArray} (hread : fs.read source = .ok old) (hopens : fs.Opens target place)
    (hwrite : fs.write target .empty = (.ok (), fs.put place (.file .empty))) :
    ∃ bytes made, (fs.put place (.file .empty)).read source = .ok bytes ∧
      fs.copy source target = (.ok (), made) ∧ Writes place bytes fs made := by
  -- the target is empty now, and it may be the source
  have hopened := hopens.writes_put .empty
  have hgrows := hopened.growsBelow hopens.lookup_ne_directory List.nil_prefix
  obtain ⟨bytes, hbytes⟩ := exists_read_of_growsBelow hgrows hread
  have hresolve := hopens.resolve_of_growsBelow hgrows (by simp [hopened.lookup_self])
  have hagain : (fs.put place (.file .empty)).Opens target place :=
    .file hresolve hopened.lookup_self
  refine ⟨bytes, _, hbytes, ?_, hopened.trans (hagain.writes_put bytes)⟩
  unfold copy
  simp only [hread, hwrite, hbytes, write_of_file hresolve hopened.lookup_self]

theorem copy_cases (fs : FileSystem) (source target : String) :
    (∃ cause, fs.copy source target = (.error cause, fs)) ∨
      ∃ place bytes made, fs.Opens target place ∧
        (fs.put place (.file .empty)).read source = .ok bytes ∧
        fs.copy source target = (.ok (), made) ∧ Writes place bytes fs made := by
  cases hread : fs.read source with
  | error cause => exact Or.inl ⟨cause, copy_of_read_error hread target⟩
  | ok old =>
    rcases write_cases fs target .empty with ⟨cause, hwrite⟩ | ⟨place, hopens, hwrite⟩
    · exact Or.inl ⟨cause, copy_of_write_error hread hwrite⟩
    · obtain ⟨bytes, made, hbytes, hcopy, hwrites⟩ := copy_of_opens hread hopens hwrite
      exact Or.inr ⟨place, bytes, made, hopens, hbytes, hcopy, hwrites⟩

/-- What stands in the way of copying stays there, if the source is kept and nothing is missing. -/
theorem exists_copy_of_growsBelow (hgrows : GrowsBelow top s t) {source target : String}
    {cause : Cause} (h : s.copy source target = (.error cause, s))
    (hread : t.read source = s.read source)
    (hfault : s.resolve target ≠ .error (.system .notFound))
    (hstart : s.lookup (s.start target) ≠ none) :
    ∃ cause', t.copy source target = (.error cause', t) := by
  cases hs : s.read source with
  | error other => exact ⟨other, copy_of_read_error (hread.trans hs) target⟩
  | ok bytes =>
    rcases write_cases s target .empty with ⟨other, hwrite⟩ | ⟨place, hopens, hwrite⟩
    · obtain ⟨cause', hagain⟩ := exists_write_of_growsBelow hgrows hwrite hfault hstart .empty
      exact ⟨cause', copy_of_write_error (hread.trans hs) hagain⟩
    · obtain ⟨_, _, -, hcopy, -⟩ := copy_of_opens hs hopens hwrite
      rw [h] at hcopy
      simp at hcopy

end FileSystem

end Scaffold
