import Scaffold.Proofs.Manifest.Writing
import Scaffold.Proofs.Template.Escaping
import Scaffold.Proofs.Text.Lines

set_option autoImplicit false

/-! # Reading a written manifest

Each line of a written manifest is read on its own, and as what it was written for (`ReadsAs`); so
the lines declare the manifest, and reading them gives it back. Escaping the text escapes its lines,
which the filter undoes one by one, so an escaped text is read as the same manifest
(`parse_of_writtenAs`). -/

namespace Scaffold

/-! ## Lines that are read -/

/-- The line is read, and filtered it has the meaning. -/
structure ReadsAs (filter : TextFilter) (meaning : ManifestLine) (line : String) : Prop where
  isLine : Text.IsLine line.toList
  mark : line.toList.head? ≠ some Text.byteOrderMark
  isSignificant : ManifestLine.isSignificant line.toList = true
  ofText : ManifestLine.ofText (filter line) = meaning

theorem toList_join_lines (lines : List String) :
    (String.join (lines.map (· ++ "\n"))).toList = Text.writeLines (lines.map String.toList) := by
  unfold Text.writeLines
  rw [String.toList_join, List.flatMap_map, List.flatMap_map]
  refine List.flatMap_congr fun line _ => ?_
  rw [String.toList_append]
  rfl

theorem forall_of_readsAs {filter : TextFilter} {meanings : List ManifestLine}
    {lines : List String} (h : List.Forall₂ (ReadsAs filter) meanings lines) :
    ∀ line ∈ lines.map String.toList, Text.IsLine line ∧
      line.head? ≠ some Text.byteOrderMark ∧ ManifestLine.isSignificant line = true := by
  induction h with
  | nil => exact fun _ hline => absurd hline List.not_mem_nil
  | cons hfirst _ ih =>
    intro line hline
    rcases List.mem_cons.1 hline with rfl | hline
    · exact ⟨hfirst.isLine, hfirst.mark, hfirst.isSignificant⟩
    · exact ih line hline

/-- Lines that are read one by one are read together. -/
theorem readAll_join_lines {filter : TextFilter} {meanings : List ManifestLine}
    {lines : List String} (h : List.Forall₂ (ReadsAs filter) meanings lines) :
    ManifestLine.readAll filter (String.join (lines.map (· ++ "\n"))) = meanings := by
  have hlines := forall_of_readsAs h
  have hmark : (String.join (lines.map (· ++ "\n"))).toList.head? ≠ some Text.byteOrderMark := by
    rw [toList_join_lines]
    intro hmark
    rcases Text.head?_writeLines hmark with hend | ⟨line, hline, hhead⟩
    · exact absurd hend (by decide)
    · exact (hlines line hline).2.1 hhead
  unfold ManifestLine.readAll
  rw [Text.dropMark_eq_self hmark, toList_join_lines,
    Text.lineChars_writeLines fun line hline => (hlines line hline).1,
    List.filter_eq_self.2 fun line hline => (hlines line hline).2.2, List.map_map]
  clear hlines hmark
  induction h with
  | nil => rfl
  | @cons meaning line meanings lines hfirst _ ih =>
    rw [List.map_cons, ih, Function.comp_apply, String.ofList_toList, hfirst.ofText]

/-! ## Written lines are read -/

/-- A trimmed line is read as what it means, unless its first character keeps it from being read. -/
theorem readsAs_of_trimmed {line : String} {meaning : ManifestLine} {c : Char}
    (hhead : line.toList.head? = some c) (hc : c ≠ '#' ∧ c ≠ Text.byteOrderMark)
    (htrim : Text.trimChars line.toList = line.toList) (hlineFeed : '\n' ∉ line.toList)
    (hmeaning : ManifestLine.ofText line = meaning) : ReadsAs id meaning line := by
  obtain ⟨hfirst, hlast⟩ := (Text.trimChars_eq_self_iff _).1 htrim
  refine ⟨⟨hlineFeed, fun hreturn => ?_⟩, ?_, ?_, hmeaning⟩
  · exact absurd (hlast _ hreturn) (by decide)
  · rw [hhead]
    exact fun hmark => hc.2 (Option.some.inj hmark)
  · have hany : (line.toList.any fun c => !Text.isBlank c) = true := by
      rw [List.any_eq_true]
      exact ⟨c, List.mem_of_head? hhead, by simp [hfirst c hhead]⟩
    unfold ManifestLine.isSignificant
    rw [hany, hhead, Bool.true_and, bne_iff_ne]
    exact fun hcomment => hc.1 (Option.some.inj hcomment)

/-- Substitution reads the escaped line as the line. -/
theorem ReadsAs.escape {meaning : ManifestLine} {line : String} (h : ReadsAs id meaning line)
    (vars : VariableTable) : ReadsAs (substitute vars) meaning (Template.escape line) := by
  obtain ⟨⟨hlineFeed, hreturn⟩, hmark, hsignificant, hmeaning⟩ := h
  have hchars : (Template.escape line).toList = Template.escapeChars line.toList :=
    String.toList_ofList
  refine ⟨⟨?_, ?_⟩, ?_, ?_, ?_⟩
  · rwa [hchars, Template.mem_escapeChars]
  · rwa [hchars, Template.getLast?_escapeChars]
  · rwa [hchars, Template.head?_escapeChars]
  · unfold ManifestLine.isSignificant at hsignificant ⊢
    rw [Bool.and_eq_true, List.any_eq_true] at hsignificant ⊢
    simpa only [hchars, Template.mem_escapeChars, Template.head?_escapeChars] using hsignificant
  · rw [Template.substitute_escape]
    exact hmeaning

theorem escape_join_lines (lines : List String) :
    Template.escape (String.join (lines.map (· ++ "\n"))) =
      String.join ((lines.map Template.escape).map (· ++ "\n")) := by
  have hend : Template.escapeChars ['\n'] = ['\n'] := by decide
  have happend : ∀ a b, Template.escapeChars (a ++ b) =
      Template.escapeChars a ++ Template.escapeChars b := fun a b => List.flatMap_append
  rw [← String.toList_inj, toList_join_lines, Template.escape, String.toList_ofList,
    toList_join_lines, List.map_map]
  unfold Text.writeLines
  induction lines with
  | nil => rfl
  | cons line lines ih =>
    rw [List.map_cons, List.flatMap_cons, happend, happend, hend, ih, List.map_cons,
      List.flatMap_cons, Function.comp_apply, Template.escape, String.toList_ofList]

/-! ## Written operations -/

namespace Operation

theorem isToken_code (kind : OperationKind) : IsToken kind.code.toList := by
  cases kind <;> exact ⟨by decide, by decide, by decide, by decide⟩

theorem exists_head?_code (kind : OperationKind) :
    ∃ c, kind.code.toList.head? = some c ∧ (c ≠ '#' ∧ c ≠ Text.byteOrderMark) ∧ c ≠ '[' := by
  cases kind with
  | copySubtree => exact ⟨'C', by decide⟩
  | copyFile => exact ⟨'C', by decide⟩
  | filterFile => exact ⟨'F', by decide⟩

/-- A trimmed line with the code and other tokens of an operation is read as that operation. -/
theorem readsAs_of_tokens {op : Operation} {line : String} (middle : List Char) {last : List Char}
    (hline : line.toList = op.kind.code.toList ++ middle ++ last) (hlast : IsToken last)
    (hmiddle : '\n' ∉ middle) {rest : List String}
    (htokens : ManifestLine.tokens line.toList = op.kind.code.toList :: rest.map String.toList)
    (hop : ofTokens? (op.kind.code :: rest) = some op) : ReadsAs id (.operation op) line := by
  have hcode := isToken_code op.kind
  obtain ⟨c, hhead, hread, hbracket⟩ := exists_head?_code op.kind
  have htrim : Text.trimChars line.toList = line.toList := by
    rw [hline]
    exact Text.trimChars_append_append hcode.trimmed hlast.trimmed hcode.ne_nil hlast.ne_nil middle
  refine readsAs_of_trimmed (c := c) ?_ hread htrim ?_ ?_
  · rw [hline, List.append_assoc, List.head?_append_of_ne_nil _ hcode.ne_nil, hhead]
  · rw [hline]
    simp [hcode.lineFeed_not_mem, hlast.lineFeed_not_mem, hmiddle]
  · refine ManifestLine.ofText_of_tokens htrim htokens ?_ ?_
    · rw [hhead]
      exact fun h => hbracket (Option.some.inj h)
    · rw [List.map_cons, List.map_map, String.ofList_toList]
      simpa [Function.comp_def] using hop

/-- An operation is read from each of the lines that it can be written as. -/
theorem WrittenAs.readsAs {op : Operation} {line : String} (h : op.WrittenAs line)
    (hop : op.IsWritable) : ReadsAs id (.operation op) line := by
  have hcode := isToken_code op.kind
  have hsource := hop.isToken_writtenSource
  have htarget := hop.target.isToken_display
  cases h with
  | full =>
    have hline : (op.kind.code ++ ": " ++ op.writtenSource ++ " : " ++
        op.transfer.target.display).toList =
        op.kind.code.toList ++ ':' :: ' ' :: op.writtenSource.toList ++
          ' ' :: ':' :: ' ' :: op.transfer.target.display.toList := by
      simp [String.toList_append]
    refine readsAs_of_tokens (':' :: ' ' :: op.writtenSource.toList ++ [' ', ':', ' '])
      (hline.trans (by simp)) htarget (by simp [hsource.lineFeed_not_mem]) ?_ hop.ofTokens?_full
    rw [hline, ManifestLine.tokens_full hcode hsource htarget]
    rfl
  | short hsame =>
    have hline : (op.kind.code ++ ": " ++ op.writtenSource).toList =
        op.kind.code.toList ++ ':' :: ' ' :: op.writtenSource.toList := by
      simp [String.toList_append]
    refine readsAs_of_tokens [':', ' '] (hline.trans (by simp)) hsource (by decide) ?_
      (hop.ofTokens?_short hsame)
    rw [hline, ManifestLine.tokens_short hcode hsource]
    rfl

end Operation

/-! ## Written manifests -/

theorem OperationSet.WrittenAs.readsAs {set : OperationSet} {lines : List String}
    (h : set.WrittenAs lines) (hset : ∀ op ∈ set.operations, op.IsWritable) :
    ∃ ops, set.IsOrder ops ∧
      List.Forall₂ (ReadsAs id) (ops.map ManifestLine.operation) lines := by
  obtain ⟨ops, horder, hlines⟩ := h
  refine ⟨ops, horder, ?_⟩
  rw [List.forall₂_map_left_iff]
  have hops : ∀ op ∈ ops, op.IsWritable := fun op hop => hset op (horder.mem_operations hop)
  clear horder hset
  induction hlines with
  | nil => exact .nil
  | @cons op line ops lines hline _ ih =>
    refine .cons (hline.readsAs (hops op List.mem_cons_self)) ?_
    exact ih fun other hother => hops other (List.mem_cons_of_mem _ hother)

theorem readsAs_header {name : String} (h : SectionName.IsWritable name) :
    ReadsAs id (.header name) ("[" ++ name ++ "]") := by
  have hchars := ManifestLine.toList_header name
  refine readsAs_of_trimmed (c := '[') ?_ (by decide) ?_ ?_
    (ManifestLine.ofText_header h.wellFormed)
  · rw [hchars]
    rfl
  · rw [hchars]
    exact ManifestLine.trimChars_header name.toList
  · rw [hchars]
    simp [h.lineFeed]

namespace Manifest

theorem SectionWrittenAs.readsAs {entry : String × OperationSet} {lines : List String}
    (h : SectionWrittenAs entry lines) (hname : SectionName.IsWritable entry.1)
    (hset : ∀ op ∈ entry.2.operations, op.IsWritable) :
    ∃ meanings, DeclareSection entry meanings ∧ List.Forall₂ (ReadsAs id) meanings lines := by
  obtain ⟨rest, hrest, rfl⟩ := h
  obtain ⟨ops, horder, hops⟩ := hrest.readsAs hset
  exact ⟨_, ⟨ops, horder, rfl⟩, .cons (readsAs_header hname) hops⟩

theorem exists_declareSections {entries : List (String × OperationSet)}
    {sections : List (List String)} (h : List.Forall₂ SectionWrittenAs entries sections)
    (hname : ∀ entry ∈ entries, SectionName.IsWritable entry.1)
    (hset : ∀ entry ∈ entries, ∀ op ∈ entry.2.operations, op.IsWritable) :
    ∃ declared, List.Forall₂ DeclareSection entries declared ∧
      List.Forall₂ (ReadsAs id) declared.flatten sections.flatten := by
  induction h with
  | nil => exact ⟨[], .nil, .nil⟩
  | @cons entry lines entries sections hfirst _ ih =>
    obtain ⟨meanings, hmeanings, hlines⟩ :=
      hfirst.readsAs (hname entry List.mem_cons_self) (hset entry List.mem_cons_self)
    obtain ⟨declared, hdeclared, hsections⟩ :=
      ih (fun other hother => hname other (List.mem_cons_of_mem _ hother))
        fun other hother => hset other (List.mem_cons_of_mem _ hother)
    exact ⟨meanings :: declared, .cons hmeanings hdeclared, List.rel_append hlines hsections⟩

/-- The lines of a written manifest are read as lines that declare it. -/
theorem WrittenAs.exists_declare {m : Manifest} {text : String} (h : m.WrittenAs text)
    (hm : m.IsWritable) :
    ∃ meanings lines, m.Declare meanings ∧ List.Forall₂ (ReadsAs id) meanings lines ∧
      text = String.join (lines.map (· ++ "\n")) := by
  obtain ⟨main, sections, hmain, hsections, rfl⟩ := h
  obtain ⟨ops, horder, hops⟩ := hmain.readsAs hm.main
  obtain ⟨declared, hdeclared, hread⟩ := exists_declareSections hsections hm.name hm.operation
  exact ⟨_, _, ⟨ops, declared, horder, hdeclared, rfl⟩, List.rel_append hops hread, rfl⟩

/-- A written manifest is read as it was, and so is its escaped text when references are
    replaced. -/
theorem parse_of_writtenAs {m : Manifest} {text : String} (hm : m.IsWritable)
    (h : m.WrittenAs text) :
    parse id text = m ∧ ∀ vars, parse (substitute vars) (Template.escape text) = m := by
  obtain ⟨meanings, lines, hdeclare, hlines, rfl⟩ := h.exists_declare hm
  have hof : ofLines meanings = m :=
    hdeclare.ofLines fun entry hentry => (hm.name entry hentry).wellFormed.ne_empty
  constructor
  · rw [parse, readAll_join_lines hlines, hof]
  · intro vars
    have hescaped : List.Forall₂ (ReadsAs (substitute vars)) meanings
        (lines.map Template.escape) := by
      rw [List.forall₂_map_right_iff]
      exact hlines.imp fun _ _ hline => hline.escape vars
    rw [escape_join_lines, parse, readAll_join_lines hescaped, hof]

/-! ## A manifest with two sections -/

/-- A main set with operations of each kind, and two sections of which one has none. -/
def twoSectionManifest : Manifest where
  main := ⟨[⟨⟨["Sources", "Proj"]⟩, ⟨["Sources"]⟩⟩], [⟨⟨["$", "é *"]⟩, ⟨["$", "é *"]⟩⟩],
    [⟨⟨["main.c"]⟩, ⟨["src", "$$.c"]⟩⟩, ⟨⟨["a"]⟩, ⟨["a"]⟩⟩]⟩
  sections := ⟨[("UI [base] $", ⟨[⟨⟨["ui"]⟩, ⟨["ui"]⟩⟩], [], []⟩), ("#", .empty)], by decide⟩

/-- A text of the manifest, with its operations out of the order of their kinds. -/
def twoSectionText : String :=
  "F: main.c : src/$$.c\nC: $/é *\nC: Sources/Proj/* : Sources\nF: a : a\n" ++
    "[UI [base] $]\nC: ui/*\n[#]\n"

theorem twoSectionManifest_writtenAs : twoSectionManifest.WrittenAs twoSectionText := by
  refine ⟨["F: main.c : src/$$.c", "C: $/é *", "C: Sources/Proj/* : Sources", "F: a : a"],
    [["[UI [base] $]", "C: ui/*"], ["[#]"]], ?_, ?_, by decide⟩
  · exact ⟨[⟨.filterFile, ⟨⟨["main.c"]⟩, ⟨["src", "$$.c"]⟩⟩⟩,
      ⟨.copyFile, ⟨⟨["$", "é *"]⟩, ⟨["$", "é *"]⟩⟩⟩,
      ⟨.copySubtree, ⟨⟨["Sources", "Proj"]⟩, ⟨["Sources"]⟩⟩⟩,
      ⟨.filterFile, ⟨⟨["a"]⟩, ⟨["a"]⟩⟩⟩], by decide, by decide⟩
  · have hui : (⟨[⟨⟨["ui"]⟩, ⟨["ui"]⟩⟩], [], []⟩ : OperationSet).WrittenAs ["C: ui/*"] :=
      ⟨[⟨.copySubtree, ⟨⟨["ui"]⟩, ⟨["ui"]⟩⟩⟩], by decide, by decide⟩
    have hempty : OperationSet.empty.WrittenAs [] := ⟨[], by decide, .nil⟩
    exact .cons ⟨_, hui, by decide⟩ (.cons ⟨_, hempty, by decide⟩ .nil)

theorem parse_of_writtenAs_sample :
    twoSectionManifest.IsWritable ∧ twoSectionManifest.WrittenAs twoSectionText ∧
      parse id twoSectionText = twoSectionManifest ∧
      ∀ vars, parse (substitute vars) (Template.escape twoSectionText) = twoSectionManifest := by
  have hwritable : twoSectionManifest.IsWritable := by decide +kernel
  exact ⟨hwritable, twoSectionManifest_writtenAs,
    parse_of_writtenAs hwritable twoSectionManifest_writtenAs⟩

end Manifest

end Scaffold
