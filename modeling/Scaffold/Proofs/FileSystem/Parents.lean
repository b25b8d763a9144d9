import Scaffold.Proofs.FileSystem.Names

set_option autoImplicit false

/-! # Parents of path texts

The parent of a path text is a beginning of the text that lacks the last move and ends in no dot
(`isParent_of_parent?`), and a text without a parent has no moves at all. So the ancestors of a path
text are a *lineage*, along which the moves are taken off one by one until none is left. -/

namespace Scaffold

namespace Path

/-! ## Silent pieces -/

theorem exists_dropSilentEnd_append (first : Bool) (pieces : List (List Char)) :
    ∃ dropped, dropSilentEnd first pieces ++ dropped = pieces ∧
      ∀ piece ∈ dropped, isSilent piece = true := by
  induction pieces generalizing first with
  | nil => exact ⟨[], rfl, fun _ h => absurd h List.not_mem_nil⟩
  | cons piece pieces ih =>
    obtain ⟨dropped, happend, hsilent⟩ := ih false
    unfold dropSilentEnd
    split
    · next hnil =>
      rw [hnil, List.nil_append] at happend
      rw [happend] at hsilent
      split_ifs with hpiece
      · refine ⟨piece :: pieces, rfl, fun other hother => ?_⟩
        rw [Bool.and_eq_true] at hpiece
        rcases List.mem_cons.1 hother with rfl | hother
        · exact hpiece.1
        · exact hsilent other hother
      · exact ⟨pieces, rfl, hsilent⟩
    · exact ⟨dropped, by rw [List.cons_append, happend], hsilent⟩

/-- What is left ends in a piece that says something, or is a dot at the very beginning. -/
theorem dropSilentEnd_cases (first : Bool) (pieces : List (List Char)) :
    dropSilentEnd first pieces = [] ∨
      (first = true ∧ dropSilentEnd first pieces = [['.']]) ∨
      ∃ before last, dropSilentEnd first pieces = before ++ [last] ∧ isSilent last = false := by
  induction pieces generalizing first with
  | nil => exact Or.inl rfl
  | cons piece pieces ih =>
    unfold dropSilentEnd
    split
    · split_ifs with hpiece
      · exact Or.inl rfl
      · right
        -- only a dot at the beginning is kept though it is silent
        by_cases hsilent : isSilent piece = false
        · exact Or.inr ⟨[], piece, rfl, hsilent⟩
        · left
          rw [Bool.not_eq_false] at hsilent
          rw [hsilent, Bool.true_and, Bool.not_eq_true, Bool.not_eq_false', Bool.and_eq_true,
            beq_iff_eq] at hpiece
          exact ⟨hpiece.1, by rw [hpiece.2]⟩
    · next hkept =>
      right
      right
      rcases ih false with hnil | ⟨hfirst, -⟩ | ⟨before, last, heq, hlast⟩
      · exact absurd hnil hkept
      · exact absurd hfirst Bool.false_ne_true
      · exact ⟨piece :: before, last, by rw [heq, List.cons_append], hlast⟩

/-! ## Pieces and texts -/

theorem unsplit_cons_of_ne_nil (piece : List Char) {pieces : List (List Char)} (h : pieces ≠ []) :
    unsplit (piece :: pieces) = piece ++ '/' :: unsplit pieces := by
  obtain ⟨second, rest, rfl⟩ := List.exists_cons_of_ne_nil h
  rfl

theorem intercalate_slash (pieces : List (List Char)) :
    ['/'].intercalate pieces = unsplit pieces := by
  induction pieces with
  | nil => rfl
  | cons piece pieces ih =>
    cases pieces with
    | nil => exact List.intercalate_singleton
    | cons second rest =>
      rw [List.intercalate_cons_cons, ih, unsplit_cons_of_ne_nil piece (List.cons_ne_nil _ _),
        List.append_assoc]
      rfl

theorem unsplit_splitChars (cs : List Char) : unsplit (Text.splitChars '/' cs) = cs := by
  rw [← intercalate_slash, Text.intercalate_splitChars]

theorem splitChars_unsplit {pieces : List (List Char)} (hne : pieces ≠ [])
    (h : ∀ piece ∈ pieces, '/' ∉ piece) : Text.splitChars '/' (unsplit pieces) = pieces := by
  rw [← intercalate_slash, Text.splitChars_intercalate hne h]

theorem unsplit_begins (before after : List (List Char)) :
    unsplit before <+: unsplit (before ++ after) := by
  induction before with
  | nil => exact List.nil_prefix
  | cons piece before ih =>
    by_cases hbefore : before = []
    · rw [hbefore, List.cons_append, List.nil_append]
      cases after with
      | nil => exact List.prefix_rfl
      | cons second rest => exact List.prefix_append piece _
    · rw [List.cons_append, unsplit_cons_of_ne_nil piece hbefore,
        unsplit_cons_of_ne_nil piece (by simp [hbefore])]
      exact (List.prefix_append_right_inj piece).2 ((List.prefix_cons_inj '/').2 ih)

/-- The pieces that say something. -/
def loud (pieces : List (List Char)) : List (List Char) :=
  pieces.filter (!isSilent ·)

theorem loud_dropSilentEnd (first : Bool) (pieces : List (List Char)) :
    loud (dropSilentEnd first pieces) = loud pieces := by
  obtain ⟨dropped, happend, hsilent⟩ := exists_dropSilentEnd_append first pieces
  have hdropped : loud dropped = [] := by
    refine List.filter_eq_nil_iff.2 fun piece hpiece => ?_
    rw [hsilent piece hpiece]
    exact Bool.false_ne_true
  have happend' := congrArg loud happend
  rwa [loud, List.filter_append, ← loud, ← loud, hdropped, List.append_nil] at happend'

theorem loud_splitChars_unsplit {pieces : List (List Char)} (h : ∀ piece ∈ pieces, '/' ∉ piece) :
    loud (Text.splitChars '/' (unsplit pieces)) = loud pieces := by
  by_cases hne : pieces = []
  · rw [hne]
    rfl
  · rw [splitChars_unsplit hne h]

/-! ## The text of a parent -/

/-- The characters of a path text without its root slash. -/
def body (cs : List Char) : List Char :=
  if isAbsolute cs then cs.drop 1 else cs

theorem eq_root_append_body (cs : List Char) :
    cs = (if isAbsolute cs then ['/'] else []) ++ body cs := by
  unfold body
  split_ifs with habsolute
  · cases cs with
    | nil => simp [isAbsolute] at habsolute
    | cons c cs =>
      have hc : c = '/' := by simpa [isAbsolute] using habsolute
      rw [hc]
      rfl
  · rfl

theorem loud_splitChars (cs : List Char) :
    loud (Text.splitChars '/' cs) = loud (Text.splitChars '/' (body cs)) := by
  conv_lhs => rw [eq_root_append_body cs]
  split_ifs
  · rfl
  · rfl

/-- The text of a parent is put together from some of the first pieces of the path, and at least one
    piece is left out. -/
theorem exists_of_parentChars? {cs parent : List Char} (h : parentChars? cs = some parent) :
    ∃ before last, leadingPieces cs = before ++ [last] ∧
      parent = (if isAbsolute cs then ['/'] else []) ++
        unsplit (dropSilentEnd (!isAbsolute cs) before) := by
  unfold parentChars? at h
  dsimp only at h
  split at h
  · simp at h
  · next pieces hne =>
    rcases List.eq_nil_or_concat (leadingPieces cs) with hnil | ⟨before, last, heq⟩
    · exact absurd hnil hne
    · rw [List.concat_eq_append] at heq
      refine ⟨before, last, heq, ?_⟩
      rw [← Option.some.inj h, heq, List.dropLast_concat]

theorem exists_kept_append (first : Bool) {pieces before : List (List Char)} {last : List Char}
    (h : dropSilentEnd first pieces = before ++ [last]) :
    ∃ rest, rest ≠ [] ∧ dropSilentEnd first before ++ rest = pieces := by
  obtain ⟨dropped, happend, -⟩ := exists_dropSilentEnd_append first pieces
  obtain ⟨dropped', happend', -⟩ := exists_dropSilentEnd_append first before
  refine ⟨dropped' ++ (last :: dropped), by simp, ?_⟩
  rw [← List.append_assoc, happend', ← happend, h, List.append_assoc]
  rfl

/-- The last of the leading pieces says something, or all of them are silent. -/
theorem loud_eq_nil_or_isSilent {first : Bool} {pieces before : List (List Char)}
    {last : List Char} (h : dropSilentEnd first pieces = before ++ [last]) :
    (loud (before ++ [last]) = [] ∧ loud before = []) ∨ isSilent last = false := by
  rcases dropSilentEnd_cases first pieces with hnil | ⟨-, hdot⟩ | ⟨_, _, heq, hlast⟩
  · simp [h] at hnil
  · rw [h] at hdot
    have hboth : before = [] ∧ [last] = [['.']] := List.append_inj' hdot rfl
    obtain ⟨rfl, hsame⟩ := hboth
    obtain rfl := List.head_eq_of_cons_eq hsame
    exact Or.inl ⟨rfl, rfl⟩
  · rw [h] at heq
    obtain ⟨-, hsame⟩ := List.append_inj' heq rfl
    obtain rfl := List.head_eq_of_cons_eq hsame
    exact Or.inr hlast

/-- The first pieces of a text make up another text than all of its pieces. -/
theorem unsplit_ne_of_append {first : Bool} {cs last : List Char}
    {before kept rest : List (List Char)}
    (hleading : dropSilentEnd first (Text.splitChars '/' cs) = before ++ [last])
    (happend : kept ++ rest = Text.splitChars '/' cs) (hrest : rest ≠ []) : unsplit kept ≠ cs := by
  rintro rfl
  by_cases hnil : kept = []
  · -- the empty text has one silent piece, and no leading ones
    rw [hnil] at hleading
    cases first <;> simp [unsplit, Text.splitChars, dropSilentEnd, isSilent] at hleading
  · have hslash : ∀ piece ∈ kept, '/' ∉ piece := fun piece hpiece =>
      Text.not_mem_of_mem_splitChars (happend ▸ List.mem_append_left rest hpiece)
    rw [splitChars_unsplit hnil hslash] at happend
    exact hrest (List.append_cancel_left (happend.trans (List.append_nil kept).symm))

theorem isAbsolute_root_append_unsplit {cs : List Char} {kept rest : List (List Char)}
    (h : kept ++ rest = Text.splitChars '/' (body cs)) :
    isAbsolute ((if isAbsolute cs then ['/'] else []) ++ unsplit kept) = isAbsolute cs := by
  by_cases habsolute : isAbsolute cs = true
  · rw [if_pos habsolute, habsolute]
    rfl
  · rw [if_neg habsolute, List.nil_append]
    rw [Bool.not_eq_true] at habsolute
    rw [habsolute]
    have hbody : body cs = cs := by simp [body, habsolute]
    rw [hbody] at h
    -- the text begins like the path, which does not begin with a slash
    have hon : unsplit kept <+: cs := by
      rw [← unsplit_splitChars cs, ← h]
      exact unsplit_begins kept rest
    cases hkept : unsplit kept with
    | nil => rfl
    | cons c tail =>
      obtain ⟨tail', htail⟩ := hon
      rw [hkept, List.cons_append] at htail
      rw [← htail] at habsolute
      exact habsolute

end Path

namespace FileSystem

theorem moves_pieces (path : String) :
    moves (pieces path) =
      (Path.loud (Text.splitChars '/' path.toList)).map String.ofList := by
  unfold moves pieces Path.loud
  rw [List.filter_map, List.filter_filter]
  congr 2
  funext piece
  have hdot : String.ofList piece = "." ↔ piece = ['.'] := by
    rw [← String.toList_inj, String.toList_ofList]
    rfl
  rw [Bool.eq_iff_iff]
  simp only [Path.isSilent, Function.comp_apply, hdot, Bool.and_eq_true, Bool.not_eq_true',
    Bool.or_eq_false_iff, decide_eq_true_eq, bne_iff_ne, beq_eq_false_iff_ne, ne_eq, and_comm]

/-- A path text is proper if no dot stands at its end, unless it consists of dots. -/
def IsProper (path : String) : Prop :=
  (pieces path).getLast? ≠ some "." ∨ moves (pieces path) = []

/-- What is known of the parent of a path text: it lacks the last move, if there is one. -/
structure IsParent (path parent : String) : Prop where
  isAbsolute : Path.isAbsolute parent.toList = Path.isAbsolute path.toList
  isProper : IsProper parent
  moves_eq : moves (pieces path) = [] ∧ moves (pieces parent) = [] ∨
    ∃ move, moves (pieces path) = moves (pieces parent) ++ [move]
  begins : parent.toList <+: path.toList
  ne : parent ≠ path

theorem IsParent.moves_begin {path parent : String} (h : IsParent path parent) :
    moves (pieces parent) <+: moves (pieces path) := by
  rcases h.moves_eq with ⟨-, hnil⟩ | ⟨move, heq⟩
  · rw [hnil]
    exact List.nil_prefix
  · rw [heq]
    exact List.prefix_append _ _

theorem IsParent.accepts {path parent : String} (h : IsParent path parent) (hpath : Accepts path)
    (hparent : parent ≠ "") : Accepts parent := by
  obtain ⟨rest, hrest⟩ := h.begins
  have hsize : path.utf8ByteSize = parent.utf8ByteSize + (String.ofList rest).utf8ByteSize := by
    rw [← String.utf8ByteSize_append]
    congr 1
    rw [← String.toList_inj, String.toList_append, String.toList_ofList, hrest]
  refine ⟨fun hnull => hpath.1 (hrest ▸ List.mem_append_left _ hnull), hparent, ?_⟩
  have hlimit := hpath.2.2
  omega

theorem IsParent.length_lt {path parent : String} (h : IsParent path parent) :
    parent.length < path.length := by
  have hne : parent.toList ≠ path.toList := fun heq => h.ne (String.toList_inj.1 heq)
  rw [← String.length_toList, ← String.length_toList]
  exact lt_of_le_of_ne h.begins.length_le fun heq => hne (h.begins.eq_of_length heq)

/-- A path text without a parent has no moves. -/
theorem moves_of_parent?_eq_none {path : String} (h : Path.parent? path = none) :
    moves (pieces path) = [] := by
  unfold Path.parent? at h
  rw [Option.map_eq_none_iff] at h
  unfold Path.parentChars? at h
  dsimp only at h
  split at h
  · next hnil =>
    rw [moves_pieces, Path.loud_splitChars,
      ← Path.loud_dropSilentEnd (!Path.isAbsolute path.toList)]
    unfold Path.leadingPieces at hnil
    dsimp only at hnil
    rw [← Path.body] at hnil
    rw [hnil]
    rfl
  · simp at h

theorem pieces_eq_body (path : String) :
    pieces path =
      ((Text.splitChars '/' (Path.body path.toList)).filter (· != [])).map String.ofList := by
  unfold pieces
  conv_lhs => rw [Path.eq_root_append_body path.toList]
  split_ifs
  · rfl
  · rfl

theorem isProper_of_kept {path : String} {first : Bool} {before : List (List Char)}
    (hbody : Path.body path.toList = Path.unsplit (Path.dropSilentEnd first before))
    (hslash : ∀ piece ∈ Path.dropSilentEnd first before, '/' ∉ piece) : IsProper path := by
  have hmoves : moves (pieces path) =
      (Path.loud (Path.dropSilentEnd first before)).map String.ofList := by
    rw [moves_pieces, Path.loud_splitChars, hbody, Path.loud_splitChars_unsplit hslash]
  rcases Path.dropSilentEnd_cases first before with hnil | ⟨-, hdot⟩ | ⟨before', last, heq, hlast⟩
  · right
    rw [hmoves, hnil]
    rfl
  · right
    rw [hmoves, hdot]
    rfl
  · left
    have hne : before' ++ [last] ≠ [] := by simp
    have hpiece : last ≠ [] ∧ last ≠ ['.'] := by simpa [Path.isSilent] using hlast
    rw [heq] at hbody hslash
    rw [pieces_eq_body, hbody, Path.splitChars_unsplit hne hslash, List.filter_append,
      List.filter_singleton]
    have hdot : String.ofList last ≠ "." := by
      rw [Ne, ← String.toList_inj, String.toList_ofList]
      exact hpiece.2
    have hkept : (last != []) = true := by rw [bne_iff_ne]; exact hpiece.1
    rw [hkept, cond_true, List.map_append, List.map_singleton, List.getLast?_concat]
    exact fun h => hdot (Option.some.inj h)

/-- What is known of every parent. -/
theorem isParent_of_parent? {path parent : String} (h : Path.parent? path = some parent) :
    IsParent path parent := by
  unfold Path.parent? at h
  obtain ⟨cs, hcs, rfl⟩ := Option.map_eq_some_iff.1 h
  obtain ⟨before, last, hleading, rfl⟩ := Path.exists_of_parentChars? hcs
  have hleading' : Path.dropSilentEnd (!Path.isAbsolute path.toList)
      (Text.splitChars '/' (Path.body path.toList)) = before ++ [last] := hleading
  obtain ⟨rest, hrest, happend⟩ := Path.exists_kept_append _ hleading'
  -- the parent is written with pieces of the path, so splitting it gives them back
  generalize hkept : Path.dropSilentEnd (!Path.isAbsolute path.toList) before = kept at *
  have hslash : ∀ piece ∈ kept, '/' ∉ piece := fun piece hpiece =>
    Text.not_mem_of_mem_splitChars (happend ▸ List.mem_append_left rest hpiece)
  have habsolute := Path.isAbsolute_root_append_unsplit happend
  set parent :=
    (if Path.isAbsolute path.toList then ['/'] else []) ++ Path.unsplit kept with hparent
  have hbody : Path.body parent = Path.unsplit kept := by
    have hroot := Path.eq_root_append_body parent
    rw [habsolute, hparent] at hroot
    exact (List.append_cancel_left hroot).symm
  have hbegins : parent <+: path.toList := by
    rw [Path.eq_root_append_body path.toList, hparent, List.prefix_append_right_inj,
      ← Path.unsplit_splitChars (Path.body path.toList), ← happend]
    exact Path.unsplit_begins kept rest
  have hparentMoves : moves (pieces (String.ofList parent)) =
      (Path.loud before).map String.ofList := by
    rw [moves_pieces, String.toList_ofList, Path.loud_splitChars, hbody,
      Path.loud_splitChars_unsplit hslash, ← hkept, Path.loud_dropSilentEnd]
  have hmoves : moves (pieces path) = (Path.loud (before ++ [last])).map String.ofList := by
    rw [moves_pieces, Path.loud_splitChars, ← hleading', Path.loud_dropSilentEnd]
  refine ⟨by rw [String.toList_ofList, habsolute], ?_, ?_, by rwa [String.toList_ofList], ?_⟩
  · refine isProper_of_kept ?_ (hkept ▸ hslash)
    rw [String.toList_ofList, hbody, hkept]
  · rw [hparentMoves, hmoves]
    rcases Path.loud_eq_nil_or_isSilent hleading' with ⟨hboth, hbefore⟩ | hlast
    · rw [hboth, hbefore]
      exact Or.inl ⟨rfl, rfl⟩
    · right
      exact ⟨String.ofList last, by simp [Path.loud, hlast]⟩
  · intro heq
    have hsame : Path.unsplit kept = Path.body path.toList := by
      rw [← heq, String.toList_ofList, hbody]
    exact Path.unsplit_ne_of_append hleading' happend hrest hsame

/-! ## Lineages -/

/-- Path texts, each followed by that of its parent, until no moves are left. -/
inductive IsLineage : List String → Prop
  | last {path : String} (h : moves (pieces path) = []) : IsLineage [path]
  | cons {path parent : String} {ancestors : List String} (hparent : IsParent path parent)
      (h : IsLineage (parent :: ancestors)) : IsLineage (path :: parent :: ancestors)

theorem exists_selfAndAncestors_eq (n : Nat) (path : String) :
    ∃ ancestors, Path.selfAndAncestors n path = path :: ancestors := by
  cases n with
  | zero => exact ⟨[], rfl⟩
  | succ n =>
    rw [Path.selfAndAncestors]
    split
    · exact ⟨[], rfl⟩
    · exact ⟨_, rfl⟩

theorem isLineage_selfAndAncestors {n : Nat} {path : String} (h : path.length ≤ n) :
    IsLineage (Path.selfAndAncestors n path) := by
  induction n generalizing path with
  | zero =>
    have hempty : path = "" := by
      rw [← String.toList_eq_nil_iff, ← List.length_eq_zero_iff, String.length_toList]
      exact Nat.le_zero.1 h
    rw [hempty]
    exact .last (by decide)
  | succ n ih =>
    unfold Path.selfAndAncestors
    split
    · next hnone => exact .last (moves_of_parent?_eq_none hnone)
    · next parent hsome =>
      have hparent := isParent_of_parent? hsome
      have hlength := hparent.length_lt
      have hancestors : IsLineage (Path.selfAndAncestors n parent) := ih (by omega)
      obtain ⟨ancestors, heq⟩ := exists_selfAndAncestors_eq n parent
      rw [heq] at hancestors ⊢
      exact .cons hparent hancestors

theorem isLineage_ancestors (path : String) : IsLineage (Path.ancestors path) :=
  isLineage_selfAndAncestors le_rfl

/-- All of a lineage starts from one place, and along it the moves only get fewer. -/
theorem IsLineage.begins_of_mem {path other : String} {ancestors : List String}
    (h : IsLineage (path :: ancestors)) (hmem : other ∈ path :: ancestors) :
    Path.isAbsolute other.toList = Path.isAbsolute path.toList ∧
      moves (pieces other) <+: moves (pieces path) := by
  generalize hlineage : path :: ancestors = lineage at h hmem
  induction h generalizing path ancestors with
  | last hmoves =>
    obtain ⟨rfl, rfl⟩ := List.cons.inj hlineage
    rw [List.mem_singleton.1 hmem]
    exact ⟨rfl, List.prefix_rfl⟩
  | cons hparent h ih =>
    obtain ⟨rfl, rfl⟩ := List.cons.inj hlineage
    rcases List.mem_cons.1 hmem with rfl | hmem
    · exact ⟨rfl, List.prefix_rfl⟩
    · obtain ⟨habsolute, hmoves⟩ := ih rfl hmem
      refine ⟨habsolute.trans hparent.isAbsolute, hmoves.trans ?_⟩
      rcases hparent.moves_eq with ⟨hpath, hparent⟩ | ⟨move, heq⟩
      · rw [hpath, hparent]
      · rw [heq]
        exact List.prefix_append _ _

/-- Parents are proper, whatever the path text is. -/
theorem IsLineage.isProper_of_mem {path other : String} {ancestors : List String}
    (h : IsLineage (path :: ancestors)) (hpath : IsProper path)
    (hmem : other ∈ path :: ancestors) : IsProper other := by
  generalize hlineage : path :: ancestors = lineage at h hmem
  induction h generalizing path ancestors with
  | last hmoves =>
    obtain ⟨rfl, rfl⟩ := List.cons.inj hlineage
    rwa [List.mem_singleton.1 hmem]
  | cons hparent h ih =>
    obtain ⟨rfl, rfl⟩ := List.cons.inj hlineage
    rcases List.mem_cons.1 hmem with rfl | hmem
    · exact hpath
    · exact ih hparent.isProper rfl hmem

theorem isLineage_cons_ancestors (path : String) :
    ∃ ancestors, Path.ancestors path = path :: ancestors ∧ IsLineage (path :: ancestors) := by
  obtain ⟨ancestors, heq⟩ := exists_selfAndAncestors_eq path.length path
  refine ⟨ancestors, heq, ?_⟩
  rw [← heq]
  exact isLineage_ancestors path

end FileSystem

end Scaffold
