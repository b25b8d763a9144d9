import Scaffold.Proofs.FileSystem.Names

set_option autoImplicit false

/-! # How long path texts are

A path text that is continued by a name gets longer by the name and by one slash at most. Slashes at
its end make a path text longer, but they do not change where it leads, nor where it leads when it is
continued by names. So a file that is there may be out of reach by some of the texts that lead to its
directory. -/

namespace Scaffold

namespace FileSystem

variable {path rest : String}

/-! ## Joined path texts -/

theorem join_eq (path : String) (h : Path.isAbsolute rest.toList = false) :
    Path.join path rest = path ++ rest ∨ Path.join path rest = path ++ ("/" ++ rest) := by
  unfold Path.join Path.joinChars
  rw [h, if_neg Bool.false_ne_true]
  split
  · left
    rw [← String.toList_inj, String.toList_ofList, String.toList_append]
  · right
    rw [← String.toList_inj, String.toList_ofList, String.toList_append, String.toList_append]
    rfl

theorem le_utf8ByteSize_join (path : String) (h : Path.isAbsolute rest.toList = false) :
    path.utf8ByteSize + rest.utf8ByteSize ≤ (Path.join path rest).utf8ByteSize := by
  rcases join_eq path h with heq | heq
  · rw [heq, String.utf8ByteSize_append]
  · rw [heq, String.utf8ByteSize_append, String.utf8ByteSize_append]
    omega

/-- A name makes a path text longer. -/
theorem lt_utf8ByteSize_join (path : String) {name : String} (h : IsName name) :
    path.utf8ByteSize < (Path.join path name).utf8ByteSize := by
  have hsize := le_utf8ByteSize_join path (isAbsolute_of_isName h)
  have hname : name.utf8ByteSize ≠ 0 := by
    rw [Ne, String.utf8ByteSize_eq_zero_iff]
    exact h.ne_empty
  omega

theorem utf8ByteSize_join_le (path : String) (h : Path.isAbsolute rest.toList = false) :
    (Path.join path rest).utf8ByteSize ≤ path.utf8ByteSize + rest.utf8ByteSize + 1 := by
  have hslash : "/".utf8ByteSize = 1 := by decide
  rcases join_eq path h with heq | heq
  · rw [heq, String.utf8ByteSize_append]
    omega
  · rw [heq, String.utf8ByteSize_append, String.utf8ByteSize_append]
    omega

theorem null_not_mem_join (hpath : '\x00' ∉ path.toList) (hrest : '\x00' ∉ rest.toList)
    (h : Path.isAbsolute rest.toList = false) : '\x00' ∉ (Path.join path rest).toList := by
  rcases join_eq path h with heq | heq
  · rw [heq, String.toList_append]
    simp [hpath, hrest]
  · rw [heq, String.toList_append, String.toList_append]
    simp [hpath, hrest]

/-- Joined path texts that are short enough are accepted. -/
theorem accepts_join (hpath : Accepts path) (hrest : '\x00' ∉ rest.toList)
    (h : Path.isAbsolute rest.toList = false)
    (hsize : path.utf8ByteSize + rest.utf8ByteSize + 1 < pathLimit) : Accepts (Path.join path rest) := by
  have hempty : path.utf8ByteSize ≠ 0 := by
    rw [Ne, String.utf8ByteSize_eq_zero_iff]
    exact hpath.2.1
  have hlower := le_utf8ByteSize_join path h
  have hupper := utf8ByteSize_join_le path h
  refine ⟨null_not_mem_join hpath.1 hrest h, ?_, by omega⟩
  rw [Ne, ← String.utf8ByteSize_eq_zero_iff]
  omega

/-! ## Slashes at the end -/

/-- The path text with that many slashes at its end. -/
def slashed (path : String) : Nat → String
  | 0 => path
  | n + 1 => slashed path n ++ "/"

theorem utf8ByteSize_slashed (path : String) (n : Nat) :
    (slashed path n).utf8ByteSize = path.utf8ByteSize + n := by
  induction n with
  | zero => rfl
  | succ n ih =>
    rw [slashed, String.utf8ByteSize_append, ih]
    rfl

theorem null_not_mem_slashed (h : '\x00' ∉ path.toList) (n : Nat) :
    '\x00' ∉ (slashed path n).toList := by
  induction n with
  | zero => exact h
  | succ n ih =>
    rw [slashed, String.toList_append]
    simp [ih]

theorem extends_slashed (h : path ≠ "") (n : Nat) : Extends path (slashed path n) [] := by
  induction n with
  | zero => exact .refl path
  | succ n ih =>
    have hjoin : slashed path (n + 1) = String.ofList ((slashed path n).toList ++ '/' :: []) := by
      rw [← String.toList_inj, String.toList_ofList, slashed, String.toList_append]
      rfl
    have hne : (slashed path n).toList ≠ [] := by
      rw [Ne, String.toList_eq_nil_iff, ← String.utf8ByteSize_eq_zero_iff, utf8ByteSize_slashed]
      rw [Ne, ← String.utf8ByteSize_eq_zero_iff] at h
      omega
    refine ⟨?_, ?_, ih.isName⟩
    · rw [← ih.isAbsolute, hjoin, String.toList_ofList]
      obtain ⟨c, cs, heq⟩ := List.exists_cons_of_ne_nil hne
      rw [heq]
      rfl
    · rw [hjoin, pieces_ofList_append_slash, pieces_ofList_nil, List.append_nil, String.ofList_toList,
        ih.pieces_eq]

theorem accepts_slashed (h : Accepts path) {n : Nat} (hsize : path.utf8ByteSize + n < pathLimit) :
    Accepts (slashed path n) := by
  refine ⟨null_not_mem_slashed h.1 n, fun hempty => h.2.1 ?_, by rwa [utf8ByteSize_slashed]⟩
  rw [← String.utf8ByteSize_eq_zero_iff, utf8ByteSize_slashed] at hempty
  rw [← String.utf8ByteSize_eq_zero_iff]
  omega

/-! ## Path texts that lead to the same, and too long ones -/

theorem isDirectory_congr {fs : FileSystem} {other : String} (h : fs.resolve path = fs.resolve other) :
    fs.isDirectory path = fs.isDirectory other := by
  unfold isDirectory entry?
  rw [h]

theorem list_congr_path {fs : FileSystem} {other : String} (h : fs.resolve path = fs.resolve other) :
    fs.list path = fs.list other := by
  unfold list
  rw [h]

theorem readText_congr_path {fs : FileSystem} {other : String}
    (h : fs.resolve path = fs.resolve other) : fs.readText path = fs.readText other := by
  unfold readText read
  rw [h]

theorem isFile_of_not_accepts (fs : FileSystem) (h : ¬ Accepts path) : fs.isFile path = false := by
  rw [← Bool.not_eq_true, isFile_iff]
  rintro ⟨bytes, hread⟩
  obtain ⟨place, hresolve, -⟩ := read_eq_ok_iff.1 hread
  exact h (resolve_eq_ok_iff.1 hresolve).1

theorem isDirectory_of_not_accepts (fs : FileSystem) (h : ¬ Accepts path) :
    fs.isDirectory path = false := by
  rw [← Bool.not_eq_true, isDirectory_iff]
  exact fun hthere => h hthere.1

end FileSystem

end Scaffold
