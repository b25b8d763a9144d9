import Mathlib.Data.Option.NAry
import Scaffold.Operation
import Scaffold.Proofs.Text.Splitting

set_option autoImplicit false

/-! # Paths put together

A slash between two texts keeps their pieces apart, so the segments of the whole are those of the
first text and then those of the second (`segmentsOf_append_slash`), and a text without segments can
be put behind a path or left out. Such a text is a star, and so is the empty one: a path can be
spelled with a slash or with a slash and a star behind it.

What an operation makes of its tokens falls into two parts. The paths give its transfer, the code
and the end of the source as it is spelled give its kind. So two spellings of one path make the same
operation, but for its kind (`isSpellingOf_of_parse?_eq`). -/

namespace Scaffold

namespace PathSpec

/-- The segments that a text names, none if it is no path. -/
def segmentsOf (path : String) : List String :=
  match parse? path with
  | some spec => spec.segments
  | none => []

theorem segmentsOf_eq_map (path : String) :
    segmentsOf path = (segmentChars path.toList).map String.ofList := by
  unfold segmentsOf parse?
  cases segmentChars path.toList with
  | nil => rfl
  | cons segment rest => rfl

/-- A path is its segments, and there is one at least. -/
theorem parse?_eq_segmentsOf (path : String) :
    parse? path = if segmentsOf path = [] then none else some ⟨segmentsOf path⟩ := by
  rw [segmentsOf_eq_map]
  unfold parse?
  cases segmentChars path.toList with
  | nil => rfl
  | cons segment rest => exact (if_neg (by simp)).symm

theorem parse?_eq_none_iff_segmentsOf (path : String) :
    parse? path = none ↔ segmentsOf path = [] := by
  rw [parse?_eq_segmentsOf]
  split_ifs with hnil <;> simp [hnil]

/-! ## A slash between two texts -/

theorem segmentsOf_append_slash (before after : String) :
    segmentsOf (before ++ "/" ++ after) = segmentsOf before ++ segmentsOf after := by
  have hchars : (before ++ "/" ++ after).toList = before.toList ++ '/' :: after.toList := by
    simp
  rw [segmentsOf_eq_map, segmentsOf_eq_map, segmentsOf_eq_map, hchars]
  unfold segmentChars
  rw [Text.splitChars_append_sep, List.map_append, List.filter_append, List.map_append]

example : segmentsOf "a/ /b/*/" = ["a", "b"] := by decide

/-- A text without segments names nothing more behind a path. -/
theorem parse?_append_slash_of_none {after : String} (h : parse? after = none) (path : String) :
    parse? (path ++ "/" ++ after) = parse? path := by
  rw [parse?_eq_none_iff_segmentsOf] at h
  rw [parse?_eq_segmentsOf, segmentsOf_append_slash, h, List.append_nil, ← parse?_eq_segmentsOf]

theorem parse?_append_slash_empty (path : String) : parse? (path ++ "/") = parse? path := by
  have hempty : parse? "" = none := by decide
  rw [← parse?_append_slash_of_none hempty path, String.append_empty]

theorem parse?_append_slash_star (path : String) : parse? (path ++ "/*") = parse? path := by
  have hstar : parse? "*" = none := by decide
  rw [← parse?_append_slash_of_none hstar path, String.append_assoc]
  rfl

/-! ## Texts without segments -/

theorem isSegment_toList_iff (piece : String) :
    isSegment piece.toList = true ↔ ¬(piece = "" ∨ piece = "*") := by
  have hempty : piece.toList = [] ↔ piece = "" := by
    rw [← String.toList_inj]
    rfl
  have hstar : piece.toList = ['*'] ↔ piece = "*" := by
    rw [← String.toList_inj]
    rfl
  rw [isSegment, Bool.and_eq_true, bne_iff_ne, bne_iff_ne, not_or, ← hempty, ← hstar]

theorem parse?_eq_none_iff (path : String) :
    parse? path = none ↔
      ∀ piece ∈ Text.split '/' path, Text.trim piece = "" ∨ Text.trim piece = "*" := by
  have hpiece : ∀ cs : List Char, isSegment (Text.trimChars cs) = true ↔
      ¬(Text.trim (String.ofList cs) = "" ∨ Text.trim (String.ofList cs) = "*") := by
    intro cs
    rw [← isSegment_toList_iff, Text.trim, String.toList_ofList, String.toList_ofList]
  rw [parse?_eq_none_iff_segmentsOf, segmentsOf_eq_map, List.map_eq_nil_iff]
  unfold segmentChars Text.split
  rw [List.filter_eq_nil_iff, List.forall_mem_map, List.forall_mem_map]
  exact forall₂_congr fun cs _ => by rw [hpiece, not_not]

end PathSpec

/-- The transfer that a source and the tokens behind it describe. -/
def Transfer.ofTexts? (source : String) (rest : List String) : Option Transfer :=
  Option.map₂ Transfer.mk (PathSpec.parse? source) (PathSpec.parse? (rest.headD source))

namespace Operation

/-- An operation is read in two parts, its kind and its transfer. -/
theorem ofTokens?_eq_map₂ (code source : String) (rest : List String) :
    ofTokens? (code :: source :: rest) =
      Option.map₂ Operation.mk (kind? code source) (Transfer.ofTexts? source rest) := by
  simp only [ofTokens?, Transfer.ofTexts?]
  cases kind? code source with
  | none => rfl
  | some kind =>
    cases hsource : PathSpec.parse? source with
    | none => rfl
    | some sourceSpec =>
      cases rest with
      | nil => simp [hsource]
      | cons target rest => cases htarget : PathSpec.parse? target <;> simp [htarget]

/-- The kind of an operation is read off its code and its source. -/
theorem kind?_of_ofTokens? {code source : String} {rest : List String} {op : Operation}
    (h : ofTokens? (code :: source :: rest) = some op) : kind? code source = some op.kind := by
  rw [ofTokens?_eq_map₂, Option.map₂_eq_some_iff] at h
  obtain ⟨kind, transfer, hkind, -, rfl⟩ := h
  exact hkind

/-- Whether a code is known does not depend on the source. -/
theorem kind?_eq_none_iff (code source : String) :
    kind? code source = none ↔ ¬(code = "C" ∨ code = "F") := by
  unfold kind?
  split_ifs with hcopy hstar hfilter <;> simp_all

/-- The transfer of an operation is read off its paths. -/
theorem map_transfer_ofTokens? (code source : String) (rest : List String) :
    (ofTokens? (code :: source :: rest)).map Operation.transfer =
      if code = "C" ∨ code = "F" then Transfer.ofTexts? source rest else none := by
  rw [ofTokens?_eq_map₂]
  split_ifs with hcode
  · obtain ⟨kind, hkind⟩ := Option.ne_none_iff_exists'.1
      (mt (kind?_eq_none_iff code source).1 (not_not.2 hcode))
    rw [hkind]
    cases Transfer.ofTexts? source rest <;> rfl
  · rw [(kind?_eq_none_iff code source).2 hcode, Option.map₂_none_left]
    rfl

/-! ## Two spellings of one path -/

/-- The text can stand for the path wherever an operation names it. As a source it leaves the
    transfer as it is and may change the kind at most, as a target it changes nothing. -/
structure IsSpellingOf (text path : String) : Prop where
  parse?_eq : PathSpec.parse? text = PathSpec.parse? path
  source : ∀ code rest, (ofTokens? (code :: text :: rest)).map Operation.transfer =
    (ofTokens? (code :: path :: rest)).map Operation.transfer
  target : ∀ code source rest, ofTokens? (code :: source :: text :: rest) =
    ofTokens? (code :: source :: path :: rest)

theorem isSpellingOf_of_parse?_eq {text path : String}
    (h : PathSpec.parse? text = PathSpec.parse? path) : IsSpellingOf text path where
  parse?_eq := h
  source code rest := by
    have htransfer : Transfer.ofTexts? text rest = Transfer.ofTexts? path rest := by
      unfold Transfer.ofTexts?
      cases rest with
      | nil => rw [List.headD_nil, List.headD_nil, h]
      | cons target rest => rw [List.headD_cons, List.headD_cons, h]
    rw [map_transfer_ofTokens?, map_transfer_ofTokens?, htransfer]
  target code source rest := by
    have htransfer : Transfer.ofTexts? source (text :: rest) =
        Transfer.ofTexts? source (path :: rest) := by
      unfold Transfer.ofTexts?
      rw [List.headD_cons, List.headD_cons, h]
    rw [ofTokens?_eq_map₂, ofTokens?_eq_map₂, htransfer]

/-! ## The kind of a copy -/

theorem endsInStar_iff (source : String) :
    ['*', '/'].isPrefixOf source.toList.reverse = true ↔ ∃ path, source = path ++ "/*" := by
  rw [List.isPrefixOf_iff_prefix]
  constructor
  · rintro ⟨rest, hrest⟩
    refine ⟨String.ofList rest.reverse, ?_⟩
    rw [← String.toList_inj, ← List.reverse_reverse source.toList, ← hrest]
    simp
  · rintro ⟨path, rfl⟩
    exact ⟨path.toList.reverse, by simp⟩

/-- A copy is one of a directory if a slash and a star stand at the end of its source. -/
theorem kind?_copy_of_star (path : String) : kind? "C" (path ++ "/*") = some .copySubtree := by
  unfold kind?
  rw [if_pos rfl, if_pos ((endsInStar_iff _).2 ⟨path, rfl⟩)]

theorem kind?_copy_eq_copyFile_iff (source : String) :
    kind? "C" source = some .copyFile ↔ ¬∃ path, source = path ++ "/*" := by
  rw [← endsInStar_iff]
  unfold kind?
  rw [if_pos rfl]
  split_ifs with hstar <;> simp [hstar]

theorem append_slash_ne_star (path other : String) : path ++ "/" ≠ other ++ "/*" := by
  intro h
  have hlast := congrArg (fun text => text.toList.getLast?) h
  simp at hlast

end Operation

open Operation in
/-- The segments of two texts with a slash between them are those of the one and then those of the
    other, and a text is no path exactly if each of its pieces is blank or a star. So a slash, or a
    slash and a star, can stand behind a path or not: the same path is named, and the operations
    from it or to it differ in nothing but the kind, which is told by the star. -/
theorem PathSpec.parse?_composes (a b : String) :
    segmentsOf (a ++ "/" ++ b) = segmentsOf a ++ segmentsOf b ∧
    (parse? a = none ↔
      ∀ piece ∈ Text.split '/' a, Text.trim piece = "" ∨ Text.trim piece = "*") ∧
    (IsSpellingOf (a ++ "/") a ∧ IsSpellingOf (a ++ "/*") a) ∧
    (∀ code source rest, ∀ op ∈ ofTokens? (code :: source :: rest),
      kind? code source = some op.kind) ∧
    kind? "C" (a ++ "/*") = some .copySubtree ∧
    kind? "C" (a ++ "/") = some .copyFile ∧
    (kind? "C" a = some .copyFile ↔ ¬∃ path, a = path ++ "/*") ∧
    ∀ source, kind? "F" source = some .filterFile := by
  refine ⟨segmentsOf_append_slash a b, parse?_eq_none_iff a, ⟨?_, ?_⟩,
    fun code source rest op hop => kind?_of_ofTokens? hop, kind?_copy_of_star a, ?_,
    kind?_copy_eq_copyFile_iff a, fun source => rfl⟩
  · exact isSpellingOf_of_parse?_eq (parse?_append_slash_empty a)
  · exact isSpellingOf_of_parse?_eq (parse?_append_slash_star a)
  · rw [kind?_copy_eq_copyFile_iff]
    rintro ⟨path, hpath⟩
    exact append_slash_ne_star a path hpath

end Scaffold
