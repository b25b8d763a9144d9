import Scaffold.PathSpec
import Scaffold.Proofs.FileSystem.Files
import Scaffold.Proofs.Text.Splitting

set_option autoImplicit false

/-! # Names

The pieces of a path text hold no slash, so what the changes of a file system add stands under
proper names. A file system in which all names are proper is *well-formed*, and it stays so. A path
text continued by names has the pieces of the text and then the names: it *extends* the text. -/

namespace Scaffold

namespace FileSystem

variable {fs : FileSystem}

/-- A text that can name something in a directory. -/
structure IsName (name : String) : Prop where
  ne_empty : name ≠ ""
  slash_not_mem : '/' ∉ name.toList
  isStep : IsStep name

instance (name : String) : Decidable (IsName name) :=
  decidable_of_iff (name ≠ "" ∧ '/' ∉ name.toList ∧ name ≠ "." ∧ name ≠ "..")
    ⟨fun ⟨hne, hslash, hstep⟩ => ⟨hne, hslash, hstep⟩,
      fun ⟨hne, hslash, hstep⟩ => ⟨hne, hslash, hstep⟩⟩

/-- The working directory is there, and everything stands under proper names. -/
structure WellFormed (fs : FileSystem) : Prop where
  workDir : fs.lookup fs.workDir = some .directory
  isName : ∀ place, fs.lookup place ≠ none → ∀ name ∈ place, IsName name

/-! ## Pieces -/

theorem pieces_ofList_append_slash (before after : List Char) :
    pieces (String.ofList (before ++ '/' :: after)) =
      pieces (String.ofList before) ++ pieces (String.ofList after) := by
  simp only [pieces, String.toList_ofList, Text.splitChars_append_sep, List.filter_append,
    List.map_append]

theorem pieces_empty : pieces "" = [] := by decide

theorem pieces_ofList_nil : pieces (String.ofList []) = [] := by decide

theorem mem_pieces {path piece : String} (h : piece ∈ pieces path) :
    piece ≠ "" ∧ '/' ∉ piece.toList := by
  obtain ⟨cs, hcs, rfl⟩ := List.mem_map.1 h
  rw [List.mem_filter] at hcs
  rw [Ne, String.ofList_eq_empty_iff, String.toList_ofList]
  exact ⟨by simpa using hcs.2, Text.not_mem_of_mem_splitChars hcs.1⟩

theorem isName_of_mem_pieces {path piece : String} (h : piece ∈ pieces path)
    (hstep : IsStep piece) : IsName piece :=
  ⟨(mem_pieces h).1, (mem_pieces h).2, hstep⟩

theorem pieces_of_slash_not_mem {piece : String} (hne : piece ≠ "") (hslash : '/' ∉ piece.toList) :
    pieces piece = [piece] := by
  have hne : piece.toList ≠ [] := by simpa using hne
  simp [pieces, Text.splitChars_of_not_mem hslash, hne]

theorem pieces_of_isName {name : String} (h : IsName name) : pieces name = [name] :=
  pieces_of_slash_not_mem h.ne_empty h.slash_not_mem

theorem isAbsolute_of_slash_not_mem {piece : String} (hslash : '/' ∉ piece.toList) :
    Path.isAbsolute piece.toList = false := by
  have hhead : piece.toList.head? ≠ some '/' := fun hmem => hslash (List.mem_of_head? hmem)
  simpa [Path.isAbsolute] using hhead

theorem isAbsolute_of_isName {name : String} (h : IsName name) :
    Path.isAbsolute name.toList = false :=
  isAbsolute_of_slash_not_mem h.slash_not_mem

/-- A text that ends in a slash has the pieces of the text before it. -/
theorem pieces_join (path : String) {rest : String} (h : Path.isAbsolute rest.toList = false) :
    pieces (Path.join path rest) = pieces path ++ pieces rest := by
  have hpath : pieces (String.ofList path.toList) = pieces path := by rw [String.ofList_toList]
  have hrest : pieces (String.ofList rest.toList) = pieces rest := by rw [String.ofList_toList]
  unfold Path.join Path.joinChars
  rw [h, if_neg Bool.false_ne_true, ← hpath, ← hrest]
  split
  · next hend =>
    rw [Bool.or_eq_true, List.isEmpty_iff, beq_iff_eq] at hend
    -- no slash is put in, since the text is empty or ends in one
    rcases hend with hempty | hslash
    · rw [hempty, List.nil_append, pieces_ofList_nil, List.nil_append]
    · obtain ⟨before, hbefore⟩ := List.getLast?_eq_some_iff.1 hslash
      have hsplit : before ++ ['/'] ++ rest.toList = before ++ '/' :: rest.toList := by simp
      rw [hbefore, hsplit, pieces_ofList_append_slash, pieces_ofList_append_slash,
        pieces_ofList_nil, List.append_nil]
  · exact pieces_ofList_append_slash _ _

theorem isAbsolute_join (path : String) {rest : String} (h : Path.isAbsolute rest.toList = false) :
    Path.isAbsolute (Path.join path rest).toList = Path.isAbsolute path.toList := by
  unfold Path.join Path.joinChars
  rw [h, if_neg Bool.false_ne_true, String.toList_ofList]
  cases hpath : path.toList with
  | nil => simpa [Path.isAbsolute] using h
  | cons c cs => split <;> simp [Path.isAbsolute]

/-! ## Absolute path texts -/

theorem isAbsolute_joinChars {path : List Char} (h : Path.isAbsolute path = true)
    (rest : List Char) : Path.isAbsolute (Path.joinChars path rest) = true := by
  obtain ⟨c, cs, rfl⟩ : ∃ c cs, path = c :: cs := by
    cases path with
    | nil => simp [Path.isAbsolute] at h
    | cons c cs => exact ⟨c, cs, rfl⟩
  unfold Path.joinChars
  split_ifs with hrest hend
  · exact hrest
  · exact h
  · exact h

theorem isAbsolute_join_of_isAbsolute {path : String} (h : Path.isAbsolute path.toList = true)
    (rest : String) : Path.isAbsolute (Path.join path rest).toList = true := by
  unfold Path.join
  rw [String.toList_ofList]
  exact isAbsolute_joinChars h rest.toList

theorem isAbsolute_foldl_joinChars {start : List Char} (h : Path.isAbsolute start = true)
    (pieces : List (List Char)) : Path.isAbsolute (pieces.foldl Path.joinChars start) = true := by
  induction pieces generalizing start with
  | nil => exact h
  | cons piece pieces ih => exact ih (isAbsolute_joinChars h piece)

theorem isAbsolute_absolute {base : String} (h : Path.isAbsolute base.toList = true)
    (path : String) : Path.isAbsolute (Path.absolute base path).toList = true := by
  have hstart : ∀ two : Bool, Path.isAbsolute (if Path.isAbsolute path.toList then
      (if two then ['/', '/'] else ['/']) else base.toList) = true := by
    intro two
    split_ifs
    · rfl
    · rfl
    · exact h
  unfold Path.absolute
  dsimp only
  rw [String.toList_ofList]
  split
  · exact isAbsolute_joinChars (isAbsolute_foldl_joinChars (hstart _) _) []
  · exact isAbsolute_foldl_joinChars (hstart _) _

theorem isAbsolute_pathOf (place : List String) :
    Path.isAbsolute (pathOf place).toList = true := by
  unfold pathOf
  rw [String.toList_append]
  rfl

/-- A text that is continued by a name does not end in a slash. -/
theorem strictPieces_join (path : String) {name : String} (h : IsName name) :
    strictPieces (Path.join path name) = pieces (Path.join path name) := by
  have hne : name.toList ≠ [] := by simpa using h.ne_empty
  have hlast : (Path.join path name).toList.getLast? = name.toList.getLast? := by
    unfold Path.join Path.joinChars
    rw [isAbsolute_of_isName h, if_neg Bool.false_ne_true, String.toList_ofList]
    split
    · rw [List.getLast?_append_of_ne_nil _ hne]
    · rw [List.getLast?_append_of_ne_nil _ (List.cons_ne_nil _ _), List.getLast?_cons_of_ne_nil hne]
  unfold strictPieces
  rw [if_neg]
  rw [hlast]
  exact fun hslash => h.slash_not_mem (List.mem_of_getLast? hslash)

/-! ## Extending a path text -/

/-- The path text leads from where the text `root` leads on along the names. -/
structure Extends (root path : String) (names : List String) : Prop where
  isAbsolute : Path.isAbsolute path.toList = Path.isAbsolute root.toList
  pieces_eq : pieces path = pieces root ++ names
  isName : ∀ name ∈ names, IsName name

theorem Extends.ne_empty {root path : String} {names : List String} (h : Extends root path names)
    (hne : names ≠ []) : path ≠ "" := by
  rintro rfl
  have hpieces := h.pieces_eq
  rw [pieces_empty] at hpieces
  simp [hne] at hpieces

theorem Extends.refl (root : String) : Extends root root [] :=
  ⟨rfl, (List.append_nil _).symm, fun _ h => absurd h List.not_mem_nil⟩

theorem Extends.join {root path name : String} {names : List String} (h : Extends root path names)
    (hname : IsName name) : Extends root (Path.join path name) (names ++ [name]) := by
  have habsolute := isAbsolute_of_isName hname
  refine ⟨(isAbsolute_join path habsolute).trans h.isAbsolute, ?_, fun other hother => ?_⟩
  · rw [pieces_join path habsolute, h.pieces_eq, pieces_of_isName hname, List.append_assoc]
  · rcases List.mem_append.1 hother with hother | hother
    · exact h.isName other hother
    · rwa [List.mem_singleton.1 hother]

theorem Extends.join_empty {root path : String} {names : List String}
    (h : Extends root path names) : Extends root (Path.join path "") names := by
  have hempty : Path.isAbsolute "".toList = false := by decide
  refine ⟨(isAbsolute_join path hempty).trans h.isAbsolute, ?_, h.isName⟩
  rw [pieces_join path hempty, pieces_empty, List.append_nil, h.pieces_eq]

theorem Extends.trans {root middle path : String} {names rest : List String}
    (h : Extends root middle names) (h' : Extends middle path rest) :
    Extends root path (names ++ rest) := by
  refine ⟨h'.isAbsolute.trans h.isAbsolute, ?_, fun name hname => ?_⟩
  · rw [h'.pieces_eq, h.pieces_eq, List.append_assoc]
  · rcases List.mem_append.1 hname with hname | hname
    · exact h.isName name hname
    · exact h'.isName name hname

theorem extends_below (root : String) {spec : PathSpec} (h : ∀ name ∈ spec.segments, IsName name) :
    Extends root (spec.below root) spec.segments := by
  unfold PathSpec.below
  generalize spec.segments = segments at h ⊢
  induction segments using List.reverseRecOn with
  | nil => exact .refl root
  | append_singleton before name ih =>
    rw [List.foldl_append]
    refine (ih fun other hother => h other (List.mem_append_left _ hother)).join ?_
    exact h name (List.mem_append_right _ List.mem_cons_self)

/-! ## Well-formed file systems -/

/-- An empty root directory, with the working directory in it. -/
theorem wellFormed_empty : (FileSystem.mk [] []).WellFormed := by
  refine ⟨rfl, fun place hplace => ?_⟩
  cases place with
  | nil => exact fun name hname => absurd hname List.not_mem_nil
  | cons name names => exact absurd rfl hplace

theorem WellFormed.lookup_start (h : fs.WellFormed) (path : String) :
    fs.lookup (fs.start path) = some .directory := by
  unfold start
  split_ifs
  · exact lookup_nil fs
  · exact h.workDir

theorem WellFormed.of_lookup {fs fs' : FileSystem} (h : fs.WellFormed) {directory : List String}
    {name : String} (hworkDir : fs'.workDir = fs.workDir)
    (hkept : ∀ place, fs.lookup place = some .directory → fs'.lookup place = some .directory)
    (hdirectory : fs.lookup directory ≠ none) (hname : IsName name)
    (hothers : ∀ place, place ≠ directory ++ [name] → fs'.lookup place = fs.lookup place) :
    fs'.WellFormed := by
  refine ⟨by rw [hworkDir]; exact hkept _ h.workDir, fun place hplace other hother => ?_⟩
  by_cases hsame : place = directory ++ [name]
  · rw [hsame] at hother
    rcases List.mem_append.1 hother with hother | hother
    · exact h.isName directory hdirectory other hother
    · rwa [List.mem_singleton.1 hother]
  · rw [hothers place hsame] at hplace
    exact h.isName place hplace other hother

theorem IsFree.isName {path : String} {here directory : List String} {name : String}
    (h : fs.IsFree here (strictPieces path) directory name) : IsName name := by
  obtain ⟨before, hbefore, -⟩ := h.exists_eq
  have hmem : name ∈ strictPieces path := by simp [hbefore]
  rcases strictPieces_eq path with heq | heq
  · exact isName_of_mem_pieces (heq ▸ hmem) h.isStep
  · rw [heq] at hmem
    rcases List.mem_append.1 hmem with hmem | hmem
    · exact isName_of_mem_pieces hmem h.isStep
    · exact absurd (List.mem_singleton.1 hmem) h.isStep.1

theorem wellFormed_makeLineage (h : fs.WellFormed) (lineage : List String) :
    (fs.makeLineage lineage).2.WellFormed := by
  refine makeLineage_preserves lineage fs (fun between path directory name _ hbetween hfree => ?_) h
  have hfree := (isFree_of_resolvePieces hfree).2
  have hadds : AddsDirectories [] between _ := hfree.addsDirectories_put List.nil_prefix
  obtain ⟨before, hbefore, -⟩ := hfree.exists_eq
  have hmem : name ∈ pieces path := by simp [hbefore]
  have hname : IsName name := isName_of_mem_pieces hmem hfree.isStep
  have hthere : between.lookup directory ≠ none := by simp [hfree.lookup_directory]
  refine hbetween.of_lookup rfl hadds.growsBelow.directory hthere hname fun place hplace => ?_
  rw [hfree.lookup_put_directory, if_neg hplace]

theorem wellFormed_makeDirectories (h : fs.WellFormed) (path : String) :
    (fs.makeDirectories path).2.WellFormed :=
  wellFormed_makeLineage h _

theorem Writes.wellFormed {made : FileSystem} {path : String} {place : List String}
    {bytes : ByteArray} (hwrites : Writes place bytes fs made) (hopens : fs.Opens path place)
    (h : fs.WellFormed) : made.WellFormed := by
  have hgrows : GrowsBelow [] fs made :=
    hwrites.growsBelow hopens.lookup_ne_directory List.nil_prefix
  cases hopens with
  | file hresolve hfile =>
    refine ⟨by rw [hwrites.workDir]; exact hgrows.directory _ h.workDir, fun other hother => ?_⟩
    by_cases hsame : other = place
    · exact h.isName other (by simp [hsame, hfile])
    · rw [hwrites.lookup_of_ne hsame] at hother
      exact h.isName other hother
  | @free directory name hresolve =>
    have hfree := (isFree_of_resolvePieces hresolve).2
    have hthere : fs.lookup directory ≠ none := by simp [hfree.lookup_directory]
    exact h.of_lookup hwrites.workDir hgrows.directory hthere hfree.isName fun place hplace =>
      hwrites.lookup_of_ne hplace

theorem wellFormed_write (h : fs.WellFormed) (path : String) (bytes : ByteArray) :
    (fs.write path bytes).2.WellFormed := by
  rcases write_cases fs path bytes with ⟨cause, hwrite⟩ | ⟨place, hopens, hwrite⟩
  · rwa [hwrite]
  · rw [hwrite]
    exact (hopens.writes_put bytes).wellFormed hopens h

/-- Everything that is listed stands under a proper name. -/
theorem WellFormed.isName_of_list (h : fs.WellFormed) {path : String}
    {entries : List (String × Bool)} (hlist : fs.list path = .ok entries)
    {name : String} {isDirectory : Bool} (hmem : (name, isDirectory) ∈ entries) : IsName name := by
  obtain ⟨place, children, -, hnode, rfl⟩ := exists_of_list hlist
  obtain ⟨other, hother, heq⟩ := List.mem_map.1 hmem
  obtain rfl : other = name := (Prod.mk.inj heq).1
  rw [Node.mem_names] at hother
  have hthere : fs.lookup (place ++ [other]) ≠ none := by
    rwa [Ne, lookup_append_singleton_eq_none_iff hnode]
  exact h.isName _ hthere other (by simp)

end FileSystem

end Scaffold
