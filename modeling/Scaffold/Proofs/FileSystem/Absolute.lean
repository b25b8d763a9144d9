import Scaffold.Proofs.FileSystem.Below

set_option autoImplicit false

/-! # Absolute path texts

Making a path text absolute takes the dots out of it and puts the path text of the working directory
before it. So the new text leads to the same directories as the old one (`isRoot_absolute_iff`), and
all that can go wrong is that the system does not accept it any more. -/

namespace Scaffold

namespace FileSystem

variable {fs : FileSystem} {base path : String} {place : List String}

/-! ## Pieces -/

theorem pieces_ofList_joinChars (before : List Char) {part : List Char} (hslash : '/' ∉ part) :
    pieces (String.ofList (Path.joinChars before part)) =
      pieces (String.ofList before) ++ pieces (String.ofList part) := by
  have hpart : '/' ∉ (String.ofList part).toList := by simpa using hslash
  have hjoin := pieces_join (String.ofList before) (isAbsolute_of_slash_not_mem hpart)
  simpa [Path.join] using hjoin

/-- Parts that are not empty are joined to a text one by one. -/
theorem pieces_ofList_foldl_joinChars (before : List Char) {parts : List (List Char)}
    (h : ∀ part ∈ parts, part ≠ [] ∧ '/' ∉ part) :
    pieces (String.ofList (parts.foldl Path.joinChars before)) =
      pieces (String.ofList before) ++ parts.map String.ofList := by
  induction parts generalizing before with
  | nil => simp
  | cons part parts ih =>
    obtain ⟨hne, hslash⟩ := h part List.mem_cons_self
    have hpart : pieces (String.ofList part) = [String.ofList part] :=
      pieces_of_slash_not_mem (by simpa using hne) (by simpa using hslash)
    rw [List.foldl_cons, ih _ fun other hother => h other (List.mem_cons_of_mem _ hother),
      pieces_ofList_joinChars _ hslash, hpart, List.append_assoc]
    rfl

/-- A slash at the end adds no piece. -/
theorem pieces_ofList_joinChars_nil (before : List Char) :
    pieces (String.ofList (Path.joinChars before [])) = pieces (String.ofList before) := by
  rw [pieces_ofList_joinChars before List.not_mem_nil, pieces_ofList_nil, List.append_nil]

/-- The absolute path text is the base, or a root slash or two, continued by what the text says. -/
theorem exists_absolute_eq (base path : String) :
    ∃ before : List Char,
      pieces (String.ofList before) =
        (if Path.isAbsolute path.toList then [] else pieces base) ∧
      pieces (Path.absolute base path) = pieces (String.ofList
        ((Path.loud (Text.splitChars '/' path.toList)).foldl Path.joinChars before)) := by
  unfold Path.absolute
  dsimp only
  generalize hbefore : (if Path.isAbsolute path.toList = true then _ else base.toList) = before
  refine ⟨before, ?_, ?_⟩
  · rw [← hbefore]
    split_ifs
    · decide
    · decide
    · rw [String.ofList_toList]
  · split
    · exact pieces_ofList_joinChars_nil _
    · rfl

/-- The absolute path text has the pieces of the base, unless the text is absolute already, and then
    those of the text without its dots. -/
theorem pieces_absolute (base path : String) :
    pieces (Path.absolute base path) =
      (if Path.isAbsolute path.toList then [] else pieces base) ++ moves (pieces path) := by
  obtain ⟨before, hbefore, habsolute⟩ := exists_absolute_eq base path
  rw [habsolute, pieces_ofList_foldl_joinChars before, hbefore, moves_pieces]
  intro part hpart
  obtain ⟨hmem, hloud⟩ := List.mem_filter.1 hpart
  refine ⟨?_, Text.not_mem_of_mem_splitChars hmem⟩
  rintro rfl
  exact absurd hloud (by decide)

/-! ## Where it leads -/

/-- Dots make no difference to a path that leads to a directory. -/
theorem follow_moves_iff {pieces here : List String} (hplace : fs.lookup place = some .directory) :
    fs.follow here (moves pieces) = .ok (.found place) ↔
      fs.follow here pieces = .ok (.found place) := by
  refine ⟨fun h => ?_, follow_moves_of_found⟩
  induction pieces generalizing here with
  | nil => exact h
  | cons piece rest ih =>
    by_cases hdot : piece = "."
    · have hmoves : moves (piece :: rest) = moves rest := by simp [moves, hdot]
      rw [hmoves] at h
      have hrest := ih h
      rw [hdot, follow_dot (lookup_of_follow hrest hplace)]
      exact hrest
    have hmoves : moves (piece :: rest) = piece :: moves rest := by simp [moves, hdot]
    rw [hmoves] at h
    have hhere := lookup_of_follow_cons h
    by_cases hparent : piece = ".."
    · rw [hparent, follow_parent hhere] at h ⊢
      exact ih h
    by_cases hlong : nameLimit < piece.utf8ByteSize
    · simp [follow_long hhere ⟨hdot, hparent⟩ hlong] at h
    by_cases hentry : fs.lookup (here ++ [piece]) = none
    · rw [follow_missing hhere ⟨hdot, hparent⟩ hlong hentry] at h
      split_ifs at h
      simp at h
    · rw [follow_name hhere ⟨hdot, hparent⟩ hlong hentry] at h ⊢
      exact ih h

/-- A path text and the absolute one lead to the same directories. -/
theorem isRoot_absolute_iff (hbase : Path.isAbsolute base.toList = true)
    (hwork : fs.LeadsTo base fs.workDir) :
    fs.IsRoot (Path.absolute base path) place ↔ fs.IsRoot path place := by
  have hstart : fs.start (Path.absolute base path) = [] := by
    unfold start
    rw [if_pos (isAbsolute_absolute hbase path)]
  have hwork : fs.follow [] (pieces base) = .ok (.found fs.workDir) := by
    have hbegin : fs.start base = [] := if_pos hbase
    rw [← hbegin]
    exact hwork
  have hfollow : fs.follow [] (pieces (Path.absolute base path)) =
      fs.follow (fs.start path) (moves (pieces path)) := by
    rw [pieces_absolute]
    unfold start
    split_ifs
    · rfl
    · exact follow_append_of_found hwork _
  constructor
  · rintro ⟨hleads, hplace⟩
    refine ⟨?_, hplace⟩
    unfold LeadsTo at hleads ⊢
    rwa [hstart, hfollow, follow_moves_iff hplace] at hleads
  · rintro ⟨hleads, hplace⟩
    refine ⟨?_, hplace⟩
    unfold LeadsTo at hleads ⊢
    rwa [hstart, hfollow, follow_moves_iff hplace]

/-- The absolute path text leads to a directory if the path text does and the system accepts it. -/
theorem isDirectory_absolute_iff (hbase : Path.isAbsolute base.toList = true)
    (hwork : fs.LeadsTo base fs.workDir) :
    fs.isDirectory (Path.absolute base path) = true ↔
      Accepts (Path.absolute base path) ∧ ∃ place, fs.IsRoot path place := by
  rw [isDirectory_iff]
  refine and_congr_right fun _ => exists_congr fun place => ?_
  rw [← isRoot_absolute_iff hbase hwork]
  exact ⟨fun ⟨hleads, hplace⟩ => ⟨hleads, hplace⟩, fun ⟨hleads, hplace⟩ => ⟨hleads, hplace⟩⟩

end FileSystem

end Scaffold
