import Scaffold.Proofs.Manifest.Sections
import Scaffold.Proofs.Template.Ends
import Scaffold.Proofs.Text.Lines

set_option autoImplicit false

/-! # Inserting a section

A section can be written at the end of a manifest's text, or in front of the header of any other
one, and nothing but this section changes: the header behind it sets the current section anew, so
the operations of the other sections stay where they were (`sameBut_ofLines`).

On the text this is a matter of line ends (`readAll_of_inserts`). The last line of a text need not
end in a line feed, a carriage return in front of a line feed does not belong to its line, and a byte
order mark stays in front of everything. Since a carriage return at the end of a line makes no
difference to its meaning, the lines can be taken as the pieces between line feeds. -/

namespace Scaffold

/-! ## What is inserted, and where -/

namespace ManifestLine

variable {filter : TextFilter}

/-- The line is read, and after it was filtered it is the header of the section `name`. -/
structure IsHeader (filter : TextFilter) (name line : String) : Prop where
  isRead : IsRead line
  header : ofText (filter line) = .header name

/-- The text is a header of the section `name` and any lines that are no headers. -/
def IsBlock (filter : TextFilter) (name block : String) : Prop :=
  ∃ header body, Text.lines block = header :: body ∧ IsHeader filter name header ∧
    ∀ line ∈ body, ∀ other, ¬ IsHeader filter other line

/-- Nothing of a line stands behind the last line feed of the text. A byte order mark at its
    beginning does not count. -/
def EndsLine (text : String) : Prop :=
  Text.dropMark text = "" ∨ text.toList.getLast? = some '\n'

/-- The second text is the first one with the block on lines of its own, at the end or in front of a
    header. -/
inductive Inserts (filter : TextFilter) (block : String) : String → String → Prop
  | atEnd (text gap : String) (hgap : gap = "" ∨ gap = "\n" ∨ gap = "\r\n")
      (hends : EndsLine (text ++ gap)) : Inserts filter block text (text ++ gap ++ block)
  | before (start rest : String) {header name : String} (hstart : EndsLine start)
      (hblock : block.toList.getLast? = some '\n')
      (hrest : (Text.lines rest).head? = some header) (hheader : IsHeader filter name header) :
      Inserts filter block (start ++ rest) (start ++ block ++ rest)

/-! ## Lines without their ends -/

/-- The meaning of a line, if it is read. -/
def meaning (filter : TextFilter) (line : List Char) : List ManifestLine :=
  if isSignificant line then [ofText (filter (String.ofList line))] else []

/-- The meanings of the pieces between line feeds. -/
def readChars (filter : TextFilter) (cs : List Char) : List ManifestLine :=
  (Text.splitChars '\n' cs).flatMap (meaning filter)

theorem readChars_nil : readChars filter [] = [] := rfl

theorem readChars_append_lineFeed (before after : List Char) :
    readChars filter (before ++ '\n' :: after) =
      readChars filter before ++ readChars filter after := by
  unfold readChars
  rw [Text.splitChars_append_sep, List.flatMap_append]

theorem readChars_append {before : List Char}
    (h : before = [] ∨ before.getLast? = some '\n') (after : List Char) :
    readChars filter (before ++ after) = readChars filter before ++ readChars filter after := by
  rcases h with rfl | hlast
  · simp [readChars_nil]
  · obtain ⟨init, rfl⟩ := List.getLast?_eq_some_iff.1 hlast
    rw [List.append_assoc, List.singleton_append, readChars_append_lineFeed,
      readChars_append_lineFeed, readChars_nil, List.append_nil]

theorem isSignificant_append_return (line : List Char) :
    isSignificant (line ++ ['\r']) = isSignificant line := by
  have hblank : Text.isBlank '\r' = true := rfl
  unfold isSignificant
  cases line with
  | nil => rfl
  | cons c line => simp [hblank]

theorem ofText_congr {line line' : String}
    (h : Text.trimChars line'.toList = Text.trimChars line.toList) :
    ofText line' = ofText line := by
  unfold ofText
  rw [h]

section

variable {vars : VariableTable}

/-- A carriage return at the end of a line is blank before the line is filtered and after. -/
theorem meaning_append_return (line : List Char) :
    meaning (substitute vars) (line ++ ['\r']) = meaning (substitute vars) line := by
  have hfiltered := toList_substitute_append_singleton vars
    (show Template.IsInert '\r' by decide) line
  have hmeaning : ofText (substitute vars (String.ofList (line ++ ['\r']))) =
      ofText (substitute vars (String.ofList line)) := by
    refine ofText_congr ?_
    rw [hfiltered, Text.trimChars_append_of_isBlank rfl]
  unfold meaning
  rw [isSignificant_append_return, hmeaning]

theorem meaning_dropReturn (line : List Char) :
    meaning (substitute vars) (Text.dropReturn line) = meaning (substitute vars) line := by
  rcases Text.dropReturn_cases line with hsame | hreturn
  · rw [hsame]
  · conv_rhs => rw [hreturn]
    rw [meaning_append_return]

/-- Lines mean what the pieces between line feeds mean. -/
theorem flatMap_linesOfPieces (pieces : List (List Char)) :
    (Text.linesOfPieces pieces).flatMap (meaning (substitute vars)) =
      pieces.flatMap (meaning (substitute vars)) := by
  induction pieces with
  | nil => rfl
  | cons piece pieces ih =>
    cases pieces with
    | nil => cases piece <;> rfl
    | cons next rest =>
      rw [Text.linesOfPieces_cons_of_ne_nil piece (by simp), List.flatMap_cons, List.flatMap_cons,
        ih, meaning_dropReturn]

theorem readChars_eq_flatMap_lines (text : String) :
    readChars (substitute vars) text.toList =
      (Text.lines text).flatMap fun line => meaning (substitute vars) line.toList := by
  unfold readChars Text.lines Text.lineChars
  rw [← flatMap_linesOfPieces, List.flatMap_map]
  simp only [String.toList_ofList]

theorem readAll_eq_readChars (text : String) :
    readAll (substitute vars) text =
      readChars (substitute vars) (Text.dropMark text).toList := by
  unfold readAll readChars Text.lineChars
  rw [← flatMap_linesOfPieces, List.flatMap_def]
  generalize Text.linesOfPieces _ = lines
  induction lines with
  | nil => rfl
  | cons line lines ih =>
    rw [List.filter_cons, List.map_cons, List.flatten_cons, ← ih]
    unfold meaning
    split_ifs <;> rfl

theorem readChars_append_return (cs : List Char) :
    readChars (substitute vars) (cs ++ ['\r']) = readChars (substitute vars) cs := by
  obtain ⟨before, last, hcs, hreturn⟩ := Text.splitChars_append_singleton_of_ne
    (show ('\r' : Char) ≠ '\n' by decide) cs
  unfold readChars
  rw [hcs, hreturn, List.flatMap_append, List.flatMap_append, List.flatMap_singleton,
    List.flatMap_singleton, meaning_append_return]

/-- An end of a line behind a text changes nothing. -/
theorem readChars_append_gap {gap : String} (hgap : gap = "" ∨ gap = "\n" ∨ gap = "\r\n")
    (cs : List Char) :
    readChars (substitute vars) (cs ++ gap.toList) = readChars (substitute vars) cs := by
  rcases hgap with rfl | rfl | rfl
  · rw [String.toList_empty, List.append_nil]
  · change readChars (substitute vars) (cs ++ '\n' :: []) = _
    rw [readChars_append_lineFeed, readChars_nil, List.append_nil]
  · change readChars (substitute vars) (cs ++ '\r' :: '\n' :: []) = _
    rw [List.append_cons, readChars_append_lineFeed, readChars_nil, List.append_nil,
      readChars_append_return]

/-! ## Byte order marks -/

/-- The first character of a line begins its first part, unless it is blank or a colon. -/
theorem head?_firstPart {line : String} {c : Char} (hblank : Text.isBlank c = false)
    (hcolon : c ≠ ':') (hline : line.toList.head? = some c) :
    (firstPart line).toList.head? = some c := by
  have htrim : (Text.trim line).toList.head? = some c := by
    unfold Text.trim
    rw [String.toList_ofList]
    exact Text.head?_trimChars hblank hline
  obtain ⟨piece, pieces, hsplit, hpiece⟩ := Text.exists_head_splitChars hcolon htrim
  unfold firstPart parts Text.split
  rw [hsplit]
  simp only [List.map_cons, List.headD_cons, Text.trim, String.toList_ofList]
  exact Text.head?_trimChars hblank hpiece

theorem head?_firstPart_of_ofText {line name : String} (h : ofText line = .header name) :
    (firstPart line).toList.head? = some '[' := by
  have hmeans := means_ofText line
  rw [h] at hmeans
  cases hmeans with
  | header _ hopen _ => exact hopen

/-- A header does not begin with a byte order mark: filtering leaves it in front of the bracket. -/
theorem IsHeader.head?_ne {name line : String} (h : IsHeader (substitute vars) name line) :
    line.toList.head? ≠ some Text.byteOrderMark := by
  intro hmark
  obtain ⟨rest, hrest⟩ := List.head?_eq_some_iff.1 hmark
  have hline : line = String.ofList (Text.byteOrderMark :: rest) := by
    rw [← hrest, String.ofList_toList]
  have hfiltered := head?_substitute vars (show Text.byteOrderMark ≠ '$' by decide) rest
  rw [← hline] at hfiltered
  have hfirst := head?_firstPart (by decide) (by decide) hfiltered
  rw [head?_firstPart_of_ofText h.header] at hfirst
  exact absurd hfirst (by decide)

/-- A text whose first line is a header does not begin with a byte order mark either. -/
theorem head?_ne_of_lines {text name line : String} (hline : (Text.lines text).head? = some line)
    (h : IsHeader (substitute vars) name line) :
    text.toList.head? ≠ some Text.byteOrderMark := by
  intro hmark
  refine h.head?_ne ?_
  unfold Text.lines at hline
  rw [List.head?_map] at hline
  obtain ⟨chars, hchars, rfl⟩ := Option.map_eq_some_iff.1 hline
  rw [String.toList_ofList]
  exact Text.head?_of_lineChars (by decide) (by decide) hmark hchars

/-! ## Reading with the block -/

theorem EndsLine.toList_dropMark {text : String} (h : EndsLine text) :
    (Text.dropMark text).toList = [] ∨ (Text.dropMark text).toList.getLast? = some '\n' := by
  rcases h with hempty | hlast
  · exact Or.inl (String.toList_eq_nil_iff.2 hempty)
  · exact Or.inr (Text.getLast?_dropMark hlast)

theorem mem_meaning {line : List Char} {m : ManifestLine} (h : m ∈ meaning filter line) :
    isSignificant line = true ∧ m = ofText (filter (String.ofList line)) := by
  unfold meaning at h
  split_ifs at h with hsignificant
  · exact ⟨hsignificant, List.mem_singleton.1 h⟩
  · exact absurd h List.not_mem_nil

theorem IsHeader.meaning_eq {name line : String} (h : IsHeader filter name line) :
    meaning filter line.toList = [.header name] := by
  unfold meaning
  rw [isSignificant_eq, String.ofList_toList, h.header, if_pos (decide_eq_true h.isRead)]

/-- A block reads as its header and lines that are none. -/
theorem IsBlock.exists_readChars {name block : String}
    (h : IsBlock (substitute vars) name block) :
    ∃ body, readChars (substitute vars) block.toList = .header name :: body ∧
      ∀ line ∈ body, ∀ other, line ≠ .header other := by
  obtain ⟨header, body, hlines, hheader, hbody⟩ := h
  refine ⟨body.flatMap fun line => meaning (substitute vars) line.toList, ?_, ?_⟩
  · rw [readChars_eq_flatMap_lines, hlines, List.flatMap_cons, hheader.meaning_eq,
      List.singleton_append]
  · intro m hm other heq
    obtain ⟨line, hline, hmeaning⟩ := List.mem_flatMap.1 hm
    obtain ⟨hread, hm⟩ := mem_meaning hmeaning
    rw [isSignificant_eq, decide_eq_true_iff] at hread
    rw [String.ofList_toList] at hm
    exact hbody line hline other ⟨hread, hm.symm.trans heq⟩

theorem exists_readChars_of_header {name line text : String}
    (hline : (Text.lines text).head? = some line) (h : IsHeader (substitute vars) name line) :
    ∃ rest, readChars (substitute vars) text.toList = .header name :: rest := by
  obtain ⟨lines, hlines⟩ := List.head?_eq_some_iff.1 hline
  refine ⟨lines.flatMap fun line => meaning (substitute vars) line.toList, ?_⟩
  rw [readChars_eq_flatMap_lines, hlines, List.flatMap_cons, h.meaning_eq, List.singleton_append]

theorem IsBlock.head?_ne {name block : String} (h : IsBlock (substitute vars) name block) :
    block.toList.head? ≠ some Text.byteOrderMark := by
  obtain ⟨header, body, hlines, hheader, -⟩ := h
  exact head?_ne_of_lines (by rw [hlines, List.head?_cons]) hheader

/-- The lines of the text with the block are those of the text with those of the block between them,
    at the end or in front of a header. -/
theorem readAll_of_inserts {name block text text' : String}
    (hblock : IsBlock (substitute vars) name block)
    (h : Inserts (substitute vars) block text text') :
    ∃ before body after, readAll (substitute vars) text = before ++ after ∧
      readAll (substitute vars) text' = before ++ .header name :: body ++ after ∧
      (∀ line ∈ body, ∀ other, line ≠ .header other) ∧
      (after = [] ∨ ∃ other rest, after = .header other :: rest) := by
  obtain ⟨body, hbody, hplain⟩ := hblock.exists_readChars
  cases h with
  | atEnd text gap hgap hends =>
    have hgapMark : text = "" → gap.toList.head? ≠ some Text.byteOrderMark := by
      rintro -
      rcases hgap with rfl | rfl | rfl <;> decide
    refine ⟨readAll (substitute vars) text, body, [], by simp, ?_, hplain, Or.inl rfl⟩
    rw [readAll_eq_readChars, readAll_eq_readChars,
      Text.toList_dropMark_append fun _ => hblock.head?_ne, readChars_append hends.toList_dropMark,
      Text.toList_dropMark_append hgapMark, readChars_append_gap hgap, hbody, List.append_nil]
  | before start rest hstart hends hrest hheader =>
    obtain ⟨after, hafter⟩ := exists_readChars_of_header hrest hheader
    have hrestMark := head?_ne_of_lines hrest hheader
    refine ⟨readChars (substitute vars) (Text.dropMark start).toList, body, _, ?_, ?_, hplain,
      Or.inr ⟨_, after, hafter⟩⟩
    · rw [readAll_eq_readChars, Text.toList_dropMark_append fun _ => hrestMark,
        readChars_append hstart.toList_dropMark]
    · have hblockRest : (block ++ rest).toList.head? ≠ some Text.byteOrderMark := by
        have hne : block.toList ≠ [] := by
          intro hnil
          simp [hnil] at hends
        rw [String.toList_append, List.head?_append_of_ne_nil _ hne]
        exact hblock.head?_ne
      rw [readAll_eq_readChars, String.append_assoc,
        Text.toList_dropMark_append fun _ => hblockRest, readChars_append hstart.toList_dropMark,
        String.toList_append, readChars_append (Or.inr hends), hbody, List.append_assoc]

end

end ManifestLine

/-! ## The sets with the block -/

namespace Manifest

variable {name : String} {m m' : Manifest}

@[simp]
theorem section?_openSection (m : Manifest) (name other : String) :
    (m.openSection name).section? other =
      if other = name then some ((m.section? name).getD .empty) else m.section? other := by
  simp only [section?, openSection, Keyed.get?_update]

@[simp]
theorem section?_push (m : Manifest) (current : Option String) (op : Operation) (other : String) :
    (m.push current op).section? other =
      if current = some other then some (((m.section? other).getD .empty).push op)
      else m.section? other := by
  cases current with
  | none => rfl
  | some name =>
    by_cases hother : other = name
    · simp [section?, push, Keyed.get?_update, hother]
    · have hname : ¬ name = other := fun h => hother h.symm
      simp [section?, push, Keyed.get?_update, hother, hname]

/-- The manifests have the same sets but for that of the section `name`. -/
structure SameBut (name : String) (m m' : Manifest) : Prop where
  main : m'.main = m.main
  others : ∀ other, other ≠ name → m'.section? other = m.section? other

theorem SameBut.refl (name : String) (m : Manifest) : SameBut name m m :=
  ⟨rfl, fun _ _ => rfl⟩

theorem SameBut.openSection (h : SameBut name m m') (opened : String) :
    SameBut name (m.openSection opened) (m'.openSection opened) := by
  refine ⟨h.main, fun other hother => ?_⟩
  rw [section?_openSection, section?_openSection, h.others other hother]
  split_ifs with hopened
  · rw [← hopened, h.others other hother]
  · rfl

theorem SameBut.push (h : SameBut name m m') (current : Option String) (op : Operation) :
    SameBut name (m.push current op) (m'.push current op) := by
  constructor
  · cases current with
    | none => exact congrArg (OperationSet.push · op) h.main
    | some opened => exact h.main
  · intro other hother
    rw [section?_push, section?_push, h.others other hother]

/-- What goes to the section itself does not count. -/
theorem SameBut.openSection_right (h : SameBut name m m') :
    SameBut name m (m'.openSection name) := by
  refine ⟨h.main, fun other hother => ?_⟩
  rw [section?_openSection, if_neg hother, h.others other hother]

theorem SameBut.push_right (h : SameBut name m m') (op : Operation) :
    SameBut name m (m'.push (some name) op) := by
  refine ⟨h.main, fun other hother => ?_⟩
  have hname : some name ≠ some other := fun heq => hother (Option.some.inj heq).symm
  rw [section?_push, if_neg hname, h.others other hother]

/-- The readers are in the same section, and their manifests have the same sets but for one. -/
structure Reader.SameBut (name : String) (r r' : Reader) : Prop where
  manifest : Manifest.SameBut name r.manifest r'.manifest
  current : r'.current = r.current

/-- Whatever stands in front of it, a header leads to its section. -/
theorem Reader.SameBut.step_header {r r' : Reader}
    (h : Manifest.SameBut name r.manifest r'.manifest) (opened : String) :
    Reader.SameBut name (r.step (.header opened)) (r'.step (.header opened)) := by
  unfold Reader.step
  dsimp only
  split_ifs
  · exact ⟨h, rfl⟩
  · exact ⟨h.openSection opened, rfl⟩

theorem Reader.SameBut.step {r r' : Reader} (h : Reader.SameBut name r r') (line : ManifestLine) :
    Reader.SameBut name (r.step line) (r'.step line) := by
  cases line with
  | header opened => exact Reader.SameBut.step_header h.manifest opened
  | operation op =>
    refine ⟨?_, h.current⟩
    simp only [Reader.step, h.current]
    exact h.manifest.push r.current op
  | badHeader text => exact h
  | other text => exact h

theorem Reader.SameBut.foldl {r r' : Reader} (h : Reader.SameBut name r r')
    (lines : List ManifestLine) :
    Reader.SameBut name (lines.foldl Reader.step r) (lines.foldl Reader.step r') := by
  induction lines generalizing r r' with
  | nil => exact h
  | cons line lines ih => exact ih (h.step line)

/-- Within its lines, a reader of the block stays in its section. -/
theorem foldl_step_body {body : List ManifestLine}
    (hbody : ∀ line ∈ body, ∀ other, line ≠ .header other) {r : Reader}
    (hcurrent : r.current = some name) (h : SameBut name m r.manifest) :
    SameBut name m (body.foldl Reader.step r).manifest := by
  induction body generalizing r with
  | nil => exact h
  | cons line body ih =>
    have hrest : ∀ other ∈ body, ∀ opened, other ≠ .header opened := fun other hother =>
      hbody other (List.mem_cons_of_mem _ hother)
    rw [List.foldl_cons]
    cases line with
    | header opened => exact absurd rfl (hbody _ List.mem_cons_self opened)
    | operation op =>
      refine ih hrest hcurrent ?_
      simp only [Reader.step, hcurrent]
      exact h.push_right op
    | badHeader text => exact ih hrest hcurrent h
    | other text => exact ih hrest hcurrent h

/-- A block at the end of the lines or in front of a header changes no set but its section's. -/
theorem sameBut_ofLines (hname : name ≠ "") (before : List ManifestLine)
    {body after : List ManifestLine} (hbody : ∀ line ∈ body, ∀ other, line ≠ .header other)
    (hafter : after = [] ∨ ∃ other rest, after = .header other :: rest) :
    SameBut name (ofLines (before ++ after))
      (ofLines (before ++ .header name :: body ++ after)) := by
  unfold ofLines
  rw [List.foldl_append, List.foldl_append, List.foldl_append, List.foldl_cons]
  generalize before.foldl Reader.step ⟨.empty, none⟩ = r
  have hopen : r.step (.header name) = ⟨r.manifest.openSection name, some name⟩ := if_neg hname
  rw [hopen]
  have hblock := foldl_step_body hbody (r := ⟨r.manifest.openSection name, some name⟩) rfl
    (SameBut.refl name r.manifest).openSection_right
  rcases hafter with rfl | ⟨other, rest, rfl⟩
  · exact hblock
  · exact ((Reader.SameBut.step_header hblock other).foldl rest).manifest

/-- A section that is inserted into the text of a manifest changes no set but its own. -/
theorem sameBut_parse {vars : VariableTable} {block text text' : String} (hname : name ≠ "")
    (hblock : ManifestLine.IsBlock (substitute vars) name block)
    (h : ManifestLine.Inserts (substitute vars) block text text') :
    SameBut name (parse (substitute vars) text) (parse (substitute vars) text') := by
  obtain ⟨before, body, after, htext, htext', hbody, hafter⟩ :=
    ManifestLine.readAll_of_inserts hblock h
  unfold parse
  rw [htext, htext']
  exact sameBut_ofLines hname before hbody hafter

end Manifest

end Scaffold
