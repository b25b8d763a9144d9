import Scaffold.Proofs.FileSystem.Lengths
import Scaffold.Proofs.Manifest.Display
import Scaffold.Proofs.Manifest.SectionName
import Scaffold.Proofs.Manifest.Segments

set_option autoImplicit false

/-! # What is read from a manifest

Whatever a filter makes of its lines, a manifest comes out well-formed: its paths have segments that
are read as they are, and its sections have distinct names that are read as they are
(`parse_wellFormed`). The reason is that paths and names are taken out of tokens, in which no colon
stands, and trimmed.

So a path can be put behind a directory segment by segment or as a whole. No segment begins at the
root, since no slash is in any: the path text of the directory is always continued, and never given
up for another one. -/

namespace Scaffold

/-! ## Joining segments -/

namespace Path

/-- Two texts are joined one after the other or with a slash between them, if the first one goes on
    from where it stands and can be gone on from. -/
theorem joinChars_joinChars (base : List Char) {first rest : List Char} (hne : first ≠ [])
    (hfirst : isAbsolute first = false) (hlast : first.getLast? ≠ some '/')
    (hrest : isAbsolute rest = false) :
    joinChars (joinChars base first) rest = joinChars base (first ++ '/' :: rest) := by
  have hwhole : isAbsolute (first ++ '/' :: rest) = false := by
    unfold isAbsolute at hfirst ⊢
    rwa [List.head?_append_of_ne_nil _ hne]
  obtain ⟨before, hbefore, hjoin⟩ : ∃ before, joinChars base first = before ++ first ∧
      joinChars base (first ++ '/' :: rest) = before ++ (first ++ '/' :: rest) := by
    unfold joinChars
    rw [hfirst, hwhole, if_neg Bool.false_ne_true, if_neg Bool.false_ne_true]
    split
    · exact ⟨base, rfl, rfl⟩
    · exact ⟨base ++ ['/'], by simp, by simp⟩
  rw [hbefore, hjoin]
  unfold joinChars
  have hend : ((before ++ first).isEmpty || (before ++ first).getLast? == some '/') = false := by
    rw [List.getLast?_append_of_ne_nil _ hne]
    simp [hne, hlast]
  rw [hrest, if_neg Bool.false_ne_true, hend, if_neg Bool.false_ne_true, List.append_assoc]

/-- Pieces are joined one by one or all at once. -/
theorem foldl_joinChars (base : List Char) {pieces : List (List Char)} (hne : pieces ≠ [])
    (h : ∀ piece ∈ pieces, piece ≠ [] ∧ '/' ∉ piece) :
    pieces.foldl joinChars base = joinChars base (unsplit pieces) := by
  induction pieces using List.reverseRecOn with
  | nil => exact absurd rfl hne
  | append_singleton before last ih =>
    by_cases hbefore : before = []
    · rw [hbefore]
      rfl
    obtain ⟨-, hlast⟩ := h last (by simp)
    have hearlier : ∀ piece ∈ before, piece ≠ [] ∧ '/' ∉ piece :=
      fun piece hpiece => h piece (List.mem_append_left _ hpiece)
    have hfirst : unsplit before ≠ [] ∧ isAbsolute (unsplit before) = false := by
      obtain ⟨piece, pieces, rfl⟩ := List.exists_cons_of_ne_nil hbefore
      obtain ⟨hne, hslash⟩ := hearlier piece List.mem_cons_self
      have hhead := head?_unsplit_cons hne pieces
      constructor
      · intro hnil
        rw [hnil] at hhead
        exact hne (List.head?_eq_none_iff.1 hhead.symm)
      · unfold isAbsolute
        rw [hhead, beq_eq_false_iff_ne]
        exact fun hmem => hslash (List.mem_of_head? hmem)
    have hend : (unsplit before).getLast? ≠ some '/' := by
      obtain ⟨pieces, piece, rfl⟩ := (List.eq_nil_or_concat before).resolve_left hbefore
      rw [List.concat_eq_append] at hearlier ⊢
      obtain ⟨hne, hslash⟩ := hearlier piece (by simp)
      rw [getLast?_unsplit_append_singleton hne]
      exact fun hmem => hslash (List.mem_of_getLast? hmem)
    have hrest : isAbsolute last = false := by
      unfold isAbsolute
      rw [beq_eq_false_iff_ne]
      exact fun hmem => hlast (List.mem_of_head? hmem)
    rw [List.foldl_append, ih hbefore hearlier, List.foldl_cons, List.foldl_nil,
      joinChars_joinChars base hfirst.1 hfirst.2 hend hrest, unsplit_append_singleton hbefore]

end Path

namespace PathSpec

/-- The path text goes on from the text `base` along the segments: it is the text with more behind
    it, it begins at the root only if the text does, and its pieces are those of the text and then
    the segments. -/
structure Continues (base path : String) (segments : List String) : Prop where
  begins : ∃ rest, path = base ++ rest
  isAbsolute : Path.isAbsolute path.toList = Path.isAbsolute base.toList
  pieces_eq : FileSystem.pieces path = FileSystem.pieces base ++ segments

/-- Everything in a path that was read from a text without a colon can be read again. -/
theorem wellFormed_of_parse? {path : String} {spec : PathSpec} (h : parse? path = some spec)
    (hcolon : ':' ∉ path.toList) : spec.WellFormed := by
  obtain ⟨hne, hpieces⟩ := pieces_of_parse? h
  obtain ⟨-, hsegments⟩ := segments_of_parse? h
  refine ⟨hne, fun segment hsegment => ?_⟩
  obtain ⟨hempty, hslash⟩ := hsegments segment hsegment
  obtain ⟨piece, hpiece, hchars, hkept⟩ := hpieces segment hsegment
  refine ⟨hempty, ?_, ?_, hslash, ?_⟩
  · rw [← String.toList_inj, Text.trim, String.toList_ofList, hchars, Text.trimChars_trimChars]
  · rintro rfl
    exact absurd hkept (by decide)
  · rw [hchars]
    intro hmem
    exact hcolon (Text.mem_of_mem_splitChars hpiece (Text.mem_of_mem_trimChars hmem))

theorem toList_below (base : String) (spec : PathSpec) :
    (spec.below base).toList =
      (spec.segments.map String.toList).foldl Path.joinChars base.toList := by
  unfold below
  generalize spec.segments = segments
  induction segments generalizing base with
  | nil => rfl
  | cons segment segments ih =>
    rw [List.foldl_cons, ih, List.map_cons, List.foldl_cons, Path.join, String.toList_ofList]

namespace WellFormed

variable {spec : PathSpec}

theorem below_eq_join (h : spec.WellFormed) (base : String) :
    spec.below base = Path.join base spec.display := by
  rw [← String.toList_inj, toList_below, Path.join, String.toList_ofList, toList_display]
  refine Path.foldl_joinChars base.toList (by simpa using h.ne_nil) fun piece hpiece => ?_
  exact ⟨(h.piece hpiece).1, (h.piece hpiece).2.2.2⟩

theorem isAbsolute_display (h : spec.WellFormed) : Path.isAbsolute spec.display.toList = false := by
  rw [toList_display]
  have hsome : spec.segments.map String.toList ≠ [] := by simpa using h.ne_nil
  obtain ⟨piece, pieces, hpieces⟩ := List.exists_cons_of_ne_nil hsome
  have hfirst : piece ∈ spec.segments.map String.toList := by
    rw [hpieces]
    exact List.mem_cons_self
  obtain ⟨hne, -, -, hslash⟩ := h.piece hfirst
  unfold Path.isAbsolute
  rw [hpieces, Path.head?_unsplit_cons hne, beq_eq_false_iff_ne]
  exact fun hmem => hslash (List.mem_of_head? hmem)

theorem pieces_display (h : spec.WellFormed) : FileSystem.pieces spec.display = spec.segments := by
  have hloud : (spec.segments.map String.toList).filter (· != []) =
      spec.segments.map String.toList :=
    List.filter_eq_self.2 fun piece hpiece => bne_iff_ne.2 (h.piece hpiece).1
  unfold FileSystem.pieces
  rw [h.splitChars_display, hloud, List.map_map]
  simp

theorem continues_below (h : spec.WellFormed) (base : String) :
    Continues base (spec.below base) spec.segments := by
  have hrelative := h.isAbsolute_display
  rw [h.below_eq_join]
  refine ⟨?_, FileSystem.isAbsolute_join base hrelative, ?_⟩
  · rcases FileSystem.join_eq base hrelative with heq | heq
    · exact ⟨_, heq⟩
    · exact ⟨_, heq⟩
  · rw [FileSystem.pieces_join base hrelative, h.pieces_display]

end WellFormed

end PathSpec

/-! ## Names of sections -/

namespace SectionName

/-- No bracket is blank, so trimming takes none off. -/
theorem IsBalanced.trimChars {name : List Char} (h : IsBalanced name) :
    IsBalanced (Text.trimChars name) := by
  obtain ⟨before, after, hname, hblank⟩ := Text.exists_eq_append_trimChars name
  have hnone : ∀ b, Text.isBlank b = false → before.count b = 0 ∧ after.count b = 0 := by
    intro b hb
    constructor
    · refine List.count_eq_zero.2 fun hmem => ?_
      rw [hblank b (List.mem_append_left _ hmem)] at hb
      exact absurd hb (by decide)
    · refine List.count_eq_zero.2 fun hmem => ?_
      rw [hblank b (List.mem_append_right _ hmem)] at hb
      exact absurd hb (by decide)
  obtain ⟨hopenBefore, hopenAfter⟩ := hnone '[' (by decide)
  obtain ⟨hcloseBefore, hcloseAfter⟩ := hnone ']' (by decide)
  refine ⟨?_, fun start hstart => ?_⟩
  · have heq := h.count_eq
    rw [hname] at heq
    simpa [List.count_append, hopenBefore, hopenAfter, hcloseBefore, hcloseAfter] using heq
  · have hle := h.count_le (before ++ start) (by
      rw [hname, List.append_assoc, List.prefix_append_right_inj]
      exact hstart.trans (List.prefix_append _ _))
    simpa [List.count_append, hopenBefore, hcloseBefore] using hle

/-- A name that is read from a token without a colon can be read again once it is trimmed, unless it
    is blank. -/
theorem wellFormed_of_parse? {token name : String} (h : parse? token = some name)
    (hcolon : ':' ∉ token.toList) (hne : Text.trim name ≠ "") : WellFormed (Text.trim name) := by
  obtain ⟨before, after, hbracketed⟩ := exists_isBracketed h
  have hchars : (Text.trim name).toList = Text.trimChars name.toList := String.toList_ofList
  refine ⟨hne, Text.trim_trim name, ?_, ?_⟩
  · rw [hchars]
    exact hbracketed.isBalanced.trimChars
  · rw [hchars]
    intro hmem
    have hname := Text.mem_of_mem_trimChars hmem
    refine hcolon ?_
    rw [hbracketed.toList_eq]
    simp [hname]

end SectionName

/-! ## Manifests -/

namespace Manifest

/-- The paths of a manifest can be read from their displays, and its sections have distinct names
    that can be read from headers. -/
structure WellFormed (m : Manifest) : Prop where
  source : ∀ op, m.Mentions op → op.transfer.source.WellFormed
  target : ∀ op, m.Mentions op → op.transfer.target.WellFormed
  nodup_names : m.sections.keys.Nodup
  name : ∀ name ∈ m.sections.keys, SectionName.WellFormed name

theorem name_wellFormed {filter : TextFilter} {text name : String}
    (h : name ∈ (parse filter text).sections.keys) : SectionName.WellFormed name := by
  rw [parse, ofLines, foldl_step_eq_after] at h
  change name ∈ (declared _).sections.keys at h
  rw [keys_declared, ManifestLine.mem_sectionNames, ManifestLine.readAll_eq_map] at h
  obtain ⟨hne, hmem⟩ := h
  obtain ⟨raw, -, hraw⟩ := List.mem_map.1 hmem
  have hmeans := ManifestLine.means_ofText (filter raw)
  rw [hraw] at hmeans
  cases hmeans with
  | header inner _ hname =>
    exact SectionName.wellFormed_of_parse? hname (ManifestLine.colon_not_mem_firstPart _) hne

theorem wellFormed_parse (filter : TextFilter) (text : String) :
    (parse filter text).WellFormed where
  source op hop := by
    obtain ⟨⟨source, hcolon, hsource⟩, -⟩ := exists_parse?_of_mentions hop
    exact PathSpec.wellFormed_of_parse? hsource hcolon
  target op hop := by
    obtain ⟨-, target, hcolon, htarget⟩ := exists_parse?_of_mentions hop
    exact PathSpec.wellFormed_of_parse? htarget hcolon
  nodup_names := (parse filter text).sections.nodup_keys
  name _ hname := name_wellFormed hname

/-- Everything that is read from a manifest is well-formed, whatever the filter gives back for a
    line. So its paths go on from any directory, joined segment by segment or as they are displayed,
    and they are read from their displays as they are. -/
theorem parse_wellFormed (filter : TextFilter) (text : String) :
    (parse filter text).WellFormed ∧
    ∀ op, (parse filter text).Mentions op → ∀ spec ∈ [op.transfer.source, op.transfer.target],
      (∀ base, spec.below base = Path.join base spec.display ∧
        PathSpec.Continues base (spec.below base) spec.segments) ∧
      PathSpec.parse? spec.display = some spec := by
  have hwell := wellFormed_parse filter text
  refine ⟨hwell, fun op hop spec hspec => ?_⟩
  have hpath : spec.WellFormed := by
    simp only [List.mem_cons, List.not_mem_nil, or_false] at hspec
    rcases hspec with rfl | rfl
    · exact hwell.source op hop
    · exact hwell.target op hop
  exact ⟨fun base => ⟨hpath.below_eq_join base, hpath.continues_below base⟩, hpath.parse?_display⟩

end Manifest

end Scaffold
