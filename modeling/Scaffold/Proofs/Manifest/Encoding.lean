import Scaffold.Proofs.Manifest.Sections
import Scaffold.Proofs.Text.Lines

set_option autoImplicit false

/-! # How a manifest is encoded

The same lines can be written as a text in several ways: with line feeds or with carriage returns and
line feeds between them, or some of each, with an end behind the last line or without one, with a
byte order mark in front or without one. All these texts are the same manifest
(`parse_encodings`). What may differ is an empty line at the end, and that line is not read. -/

namespace Scaffold

namespace ManifestLine

variable {lines : List String} {line next ending final text joined : String} {c : Char}

/-! ## Encodings -/

/-- What ends a line. -/
def IsLineEnd (ending : String) : Prop :=
  ending = "\n" ∨ ending = "\r\n"

/-- The text is the lines with an end of a line between each two, of whichever kind. -/
inductive Joins : List String → String → Prop
  | nil : Joins [] ""
  | single (line : String) : Joins [line] line
  | cons {next text : String} {lines : List String} (line ending : String)
      (hending : IsLineEnd ending) (h : Joins (next :: lines) text) :
      Joins (line :: next :: lines) (line ++ ending ++ text)

/-- The text is the joined lines, perhaps with a byte order mark in front, perhaps with an end behind
    the last line. -/
inductive Encodes (lines : List String) : String → Prop
  | intro (mark joined final : String)
      (hmark : mark = "" ∨ mark = String.singleton Text.byteOrderMark)
      (hjoins : Joins lines joined) (hfinal : final = "" ∨ IsLineEnd final) :
      Encodes lines (mark ++ joined ++ final)

/-- Lines that can be told from the ends of lines and from a byte order mark around them. -/
structure AreLines (lines : List String) : Prop where
  isLine : ∀ line ∈ lines, Text.IsLine line.toList
  mark : ∀ line, lines.head? = some line → line.toList.head? ≠ some Text.byteOrderMark

/-! ## The lines of an encoding -/

/-- A line is read from its text whichever end stands behind it. -/
theorem lines_append_end (hline : Text.IsLine line.toList) (hending : IsLineEnd ending)
    (rest : String) : Text.lines (line ++ ending ++ rest) = line :: Text.lines rest := by
  have hchars : Text.lineChars (line ++ ending ++ rest).toList =
      line.toList :: Text.lineChars rest.toList := by
    rw [String.toList_append, String.toList_append, List.append_assoc]
    rcases hending with rfl | rfl
    · change Text.lineChars (line.toList ++ '\n' :: rest.toList) = _
      rw [Text.lineChars_append_lineFeed hline.lineFeed,
        Text.dropReturn_eq_self hline.carriageReturn]
    · change Text.lineChars (line.toList ++ '\r' :: '\n' :: rest.toList) = _
      have hfree : '\n' ∉ line.toList ++ ['\r'] := by
        simp [hline.lineFeed]
      rw [List.append_cons, Text.lineChars_append_lineFeed hfree, Text.dropReturn_append_return]
  unfold Text.lines
  rw [hchars, List.map_cons, String.ofList_toList]

theorem filter_lines_of_isLine (hline : Text.IsLine line.toList) :
    (Text.lines line).filter (fun line => IsRead line) = [line].filter fun line => IsRead line := by
  by_cases hempty : line = ""
  · subst hempty
    rfl
  · have hchars : Text.lineChars line.toList = [line.toList] := by
      obtain ⟨c, cs, hcs⟩ := List.exists_cons_of_ne_nil fun h => hempty (String.toList_eq_nil_iff.1 h)
      unfold Text.lineChars
      rw [Text.splitChars_of_not_mem hline.lineFeed, hcs]
      rfl
    unfold Text.lines
    rw [hchars, List.map_singleton, String.ofList_toList]

theorem filter_lines_of_joins (hjoins : Joins lines joined)
    (hlines : ∀ line ∈ lines, Text.IsLine line.toList) (hfinal : final = "" ∨ IsLineEnd final) :
    (Text.lines (joined ++ final)).filter (fun line => IsRead line) =
      lines.filter fun line => IsRead line := by
  have hlast : ∀ line : String, Text.IsLine line.toList →
      (Text.lines (line ++ final)).filter (fun line => IsRead line) =
        [line].filter fun line => IsRead line := by
    intro line hline
    rcases hfinal with rfl | hending
    · rw [String.append_empty, filter_lines_of_isLine hline]
    · have hnothing : line ++ final = line ++ final ++ "" := String.append_empty.symm
      rw [hnothing, lines_append_end hline hending]
      rfl
  induction hjoins with
  | nil =>
    have hnothing : Text.IsLine "".toList := ⟨by decide, by decide⟩
    rw [hlast "" hnothing]
    rfl
  | single line => exact hlast line (hlines line (List.mem_singleton_self line))
  | cons line ending hending h ih =>
    obtain ⟨hline, hrest⟩ := List.forall_mem_cons.1 hlines
    rw [String.append_assoc, lines_append_end hline hending, List.filter_cons, List.filter_cons,
      ih hrest]

/-! ## The byte order mark -/

theorem head?_append_ne (hline : line.toList.head? ≠ some c) (htext : text.toList.head? ≠ some c) :
    (line ++ text).toList.head? ≠ some c := by
  rw [String.toList_append, List.head?_append]
  cases hhead : line.toList.head? with
  | none => exact htext
  | some first => exact fun h => hline (hhead.trans h)

theorem head?_ending_ne (hending : IsLineEnd ending) (rest : String) :
    (ending ++ rest).toList.head? ≠ some Text.byteOrderMark := by
  rw [String.toList_append]
  rcases hending with rfl | rfl
  · change some '\n' ≠ _
    decide
  · change some '\r' ≠ _
    decide

/-- Joined lines do not begin with a byte order mark of their own. -/
theorem head?_joined_ne (hjoins : Joins lines joined) (hlines : AreLines lines)
    (hfinal : final = "" ∨ IsLineEnd final) :
    (joined ++ final).toList.head? ≠ some Text.byteOrderMark := by
  have hend : final.toList.head? ≠ some Text.byteOrderMark := by
    rcases hfinal with rfl | hending
    · simp
    · have hnothing : final = final ++ "" := String.append_empty.symm
      rw [hnothing]
      exact head?_ending_ne hending ""
  cases hjoins with
  | nil => rwa [String.empty_append]
  | single => exact head?_append_ne (hlines.mark joined rfl) hend
  | cons line ending hending h =>
    rw [String.append_assoc, String.append_assoc]
    exact head?_append_ne (hlines.mark line rfl) (head?_ending_ne hending _)

theorem dropMark_mark_append {mark : String}
    (hmark : mark = "" ∨ mark = String.singleton Text.byteOrderMark)
    (htext : text.toList.head? ≠ some Text.byteOrderMark) : Text.dropMark (mark ++ text) = text := by
  rcases hmark with rfl | rfl
  · rw [String.empty_append, Text.dropMark_eq_self htext]
  · have hchars : (String.singleton Text.byteOrderMark ++ text).toList =
        Text.byteOrderMark :: text.toList := by
      rw [String.toList_append]
      rfl
    unfold Text.dropMark
    rw [hchars]
    dsimp only
    rw [if_pos rfl, String.ofList_toList]

/-- However lines are encoded, those of them that count are read. -/
theorem readLines_of_encodes (h : Encodes lines text) (hlines : AreLines lines) :
    readLines text = lines.filter fun line => IsRead line := by
  cases h with
  | intro mark joined final hmark hjoins hfinal =>
    unfold readLines
    rw [String.append_assoc, dropMark_mark_append hmark (head?_joined_ne hjoins hlines hfinal),
      filter_lines_of_joins hjoins hlines.isLine hfinal]

end ManifestLine

namespace Manifest

open ManifestLine

/-- Texts that encode the same lines are the same manifest, for every filter: the one that is made up
    of what the lines that count mean when they are filtered. -/
theorem parse_encodings (filter : TextFilter) {lines : List String} {text text' : String}
    (hlines : AreLines lines) (h : Encodes lines text) (h' : Encodes lines text') :
    parse filter text = parse filter text' ∧
      parse filter text = ofLines
        ((lines.filter fun line => IsRead line).map fun line => ofText (filter line)) := by
  have hread : ∀ encoding, Encodes lines encoding → parse filter encoding = ofLines
      ((lines.filter fun line => IsRead line).map fun line => ofText (filter line)) := by
    intro encoding hencoding
    unfold parse
    rw [readAll_eq_map, readLines_of_encodes hencoding hlines]
  exact ⟨(hread text h).trans (hread text' h').symm, hread text h⟩

/-- Two operations and a header between them, behind an empty line. -/
def sectionLines : List String :=
  ["C: a.txt", "", "[S]", "F: b.txt"]

theorem sectionLines_areLines : AreLines sectionLines := by
  refine ⟨?_, by decide⟩
  have hlines : ∀ line ∈ sectionLines,
      '\n' ∉ line.toList ∧ line.toList.getLast? ≠ some '\r' := by
    decide
  exact fun line hline => ⟨(hlines line hline).1, (hlines line hline).2⟩

theorem sectionLines_marked :
    Encodes sectionLines "\uFEFFC: a.txt\r\n\n[S]\r\nF: b.txt" := by
  have hjoins := Joins.cons "C: a.txt" "\r\n" (Or.inr rfl) (.cons "" "\n" (Or.inl rfl)
    (.cons "[S]" "\r\n" (Or.inr rfl) (.single "F: b.txt")))
  have hencodes := Encodes.intro _ _ "" (Or.inr rfl) hjoins (Or.inl rfl)
  have htext : String.singleton Text.byteOrderMark ++
      ("C: a.txt" ++ "\r\n" ++ ("" ++ "\n" ++ ("[S]" ++ "\r\n" ++ "F: b.txt"))) ++ "" =
        "\uFEFFC: a.txt\r\n\n[S]\r\nF: b.txt" := by
    decide
  rwa [htext] at hencodes

theorem sectionLines_plain : Encodes sectionLines "C: a.txt\n\n[S]\nF: b.txt\n" := by
  have hjoins := Joins.cons "C: a.txt" "\n" (Or.inl rfl) (.cons "" "\n" (Or.inl rfl)
    (.cons "[S]" "\n" (Or.inl rfl) (.single "F: b.txt")))
  have hencodes := Encodes.intro _ _ "\n" (Or.inl rfl) hjoins (Or.inr (Or.inl rfl))
  have htext : "" ++ ("C: a.txt" ++ "\n" ++ ("" ++ "\n" ++ ("[S]" ++ "\n" ++ "F: b.txt"))) ++ "\n" =
      "C: a.txt\n\n[S]\nF: b.txt\n" := by
    decide
  rwa [htext] at hencodes

theorem parse_encodings_sectionLines :
    AreLines sectionLines ∧
    Encodes sectionLines "\uFEFFC: a.txt\r\n\n[S]\r\nF: b.txt" ∧
    Encodes sectionLines "C: a.txt\n\n[S]\nF: b.txt\n" ∧
    parse id "\uFEFFC: a.txt\r\n\n[S]\r\nF: b.txt" = parse id "C: a.txt\n\n[S]\nF: b.txt\n" ∧
    (parse id "C: a.txt\n\n[S]\nF: b.txt\n").sections.keys = ["S"] := by
  obtain ⟨hsame, hread⟩ :=
    parse_encodings id sectionLines_areLines sectionLines_marked sectionLines_plain
  refine ⟨sectionLines_areLines, sectionLines_marked, sectionLines_plain, hsame, ?_⟩
  rw [← hsame, hread]
  decide +kernel

end Manifest

end Scaffold
