import Mathlib.Data.List.Nodup
import Mathlib.Data.List.Forall2
import Scaffold.Manifest.Basic
import Scaffold.Proofs.Text.Splitting

set_option autoImplicit false

/-! # What a manifest declares

Reading a manifest carries a current section along. This file says what a manifest declares without
one: every line has a meaning of its own (`ManifestLine.Means`), and an operation belongs to the
section of the nearest header before it (`ManifestLine.owner`). `Manifest.declared` collects the
queues by these two, for each section from the whole list of lines, and `parse_eq_declared` says
that reading comes to the same.

The induction is on the lines from the last one back, since a new last line changes neither the
meaning nor the owner of the lines before it. -/

namespace Scaffold

/-! ## The meaning of a line -/

namespace ManifestLine

/-- A line that is read: it is not blank, and its first character is not a number sign. -/
def IsRead (line : String) : Prop :=
  Text.trim line ≠ "" ∧ line.toList.head? ≠ some '#'

instance (line : String) : Decidable (IsRead line) :=
  inferInstanceAs (Decidable (_ ∧ _))

/-- The lines of a manifest that are read. -/
def readLines (text : String) : List String :=
  (Text.lines (Text.dropMark text)).filter fun line => IsRead line

/-- The trimmed parts of a line between its colons. -/
def parts (line : String) : List String :=
  (Text.split ':' (Text.trim line)).map Text.trim

/-- The part before the first colon. -/
def firstPart (line : String) : String :=
  (parts line).headD ""

/-- The meanings of filtered lines. -/
inductive Means (line : String) : ManifestLine → Prop
  | header (name : String) (hopen : (firstPart line).toList.head? = some '[')
      (hname : SectionName.parse? (firstPart line) = some name) :
      Means line (.header (Text.trim name))
  | badHeader (hopen : (firstPart line).toList.head? = some '[')
      (hname : SectionName.parse? (firstPart line) = none) :
      Means line (.badHeader (Text.trim line))
  | operation (op : Operation) (hopen : (firstPart line).toList.head? ≠ some '[')
      (hop : Operation.ofTokens? (parts line) = some op) :
      Means line (.operation op)
  | other (hopen : (firstPart line).toList.head? ≠ some '[')
      (hop : Operation.ofTokens? (parts line) = none) :
      Means line (.other (Text.trim line))

theorem map_ofList_tokens (line : String) :
    (tokens (Text.trimChars line.toList)).map String.ofList = parts line := by
  unfold tokens parts Text.split Text.trim
  simp only [List.map_map, String.toList_ofList]
  refine List.map_congr_left fun piece _ => ?_
  simp

theorem ofList_headD_tokens (line : String) :
    String.ofList ((tokens (Text.trimChars line.toList)).headD []) = firstPart line := by
  rw [firstPart, ← map_ofList_tokens]
  cases tokens (Text.trimChars line.toList) <;> rfl

/-- A filtered line has the meaning that the reader gives it. -/
theorem means_ofText (line : String) : Means line (ofText line) := by
  have hparts := map_ofList_tokens line
  have hfirst := ofList_headD_tokens line
  have htrim : String.ofList (Text.trimChars line.toList) = Text.trim line := rfl
  unfold ofText ofTrimmed
  generalize htokens : tokens (Text.trimChars line.toList) = ts at hparts hfirst
  have hchars : (firstPart line).toList = ts.headD [] := by rw [← hfirst, String.toList_ofList]
  simp only [hparts]
  by_cases hopen : (ts.headD []).head? = some '['
  · rw [if_pos hopen]
    rw [← hchars] at hopen
    cases hname : SectionName.inBrackets? (ts.headD []) with
    | some name =>
      have hparse : SectionName.parse? (firstPart line) = some (String.ofList name) := by
        rw [SectionName.parse?, hchars, hname, Option.map_some]
      have hmeans := Means.header _ hopen hparse
      rwa [Text.trim, String.toList_ofList] at hmeans
    | none =>
      refine Means.badHeader hopen ?_
      rw [SectionName.parse?, hchars, hname, Option.map_none]
  · rw [if_neg hopen]
    rw [← hchars] at hopen
    cases hop : Operation.ofTokens? (parts line) with
    | some op => exact Means.operation op hopen hop
    | none => exact Means.other hopen hop

theorem Means.unique {line : String} {m m' : ManifestLine} (h : Means line m)
    (h' : Means line m') : m = m' := by
  cases h <;> cases h' <;> simp_all

/-- The reader looks at the lines that are read, and at no others. -/
theorem isSignificant_eq (line : String) : isSignificant line.toList = decide (IsRead line) := by
  have hblank : (line.toList.any fun c => !Text.isBlank c) = true ↔ Text.trim line ≠ "" := by
    rw [Ne, Text.trim_eq_empty_iff, List.any_eq_true]
    simp
  rw [Bool.eq_iff_iff, decide_eq_true_iff]
  unfold isSignificant IsRead
  rw [Bool.and_eq_true, hblank, bne_iff_ne]

theorem readAll_eq_map (filter : TextFilter) (text : String) :
    readAll filter text = (readLines text).map fun raw => ofText (filter raw) := by
  unfold readAll readLines Text.lines
  rw [List.filter_map, List.map_map]
  have hfilter : ((fun line => decide (IsRead line)) ∘ String.ofList) = isSignificant := by
    funext cs
    rw [Function.comp_apply, ← isSignificant_eq, String.toList_ofList]
  rw [hfilter]
  rfl

/-- The lines of a manifest have the meanings that the reader gives them, and no others. -/
theorem forall₂_means_iff (filter : TextFilter) (text : String) (lines : List ManifestLine) :
    List.Forall₂ (fun raw line => Means (filter raw) line) (readLines text) lines ↔
      lines = readAll filter text := by
  rw [readAll_eq_map]
  generalize readLines text = raws
  induction raws generalizing lines with
  | nil => simp
  | cons raw raws ih =>
    cases lines with
    | nil => simp
    | cons line lines =>
      rw [List.forall₂_cons, ih, List.map_cons, List.cons.injEq]
      exact and_congr_left fun _ =>
        ⟨fun h => h.unique (means_ofText _), fun h => h ▸ means_ofText _⟩

/-! ## The section of a line -/

/-- The name in a header. -/
def header? : ManifestLine → Option String
  | .header name => some name
  | _ => none

/-- The name in the nearest header before the line at position `i`. The empty name stands for the
    main set, to which the lines without a header before them belong too. -/
def owner (lines : List ManifestLine) (i : Nat) : String :=
  ((lines.take i).reverse.findSome? header?).getD ""

/-- What the line at position `i` adds to the queue of a kind in the section `name`. -/
def transfer? (lines : List ManifestLine) (name : String) (kind : OperationKind) :
    ManifestLine × Nat → Option Transfer
  | (.operation op, i) =>
    if op.kind = kind ∧ owner lines i = name then some op.transfer else none
  | _ => none

/-- The queue of a kind in the section `name`. -/
def queue (lines : List ManifestLine) (name : String) (kind : OperationKind) : List Transfer :=
  lines.zipIdx.filterMap (transfer? lines name kind)

/-- The operations of the section `name`. -/
def operationsOf (lines : List ManifestLine) (name : String) : OperationSet :=
  ⟨queue lines name .copySubtree, queue lines name .copyFile, queue lines name .filterFile⟩

/-- The names of the sections, each where it first came. -/
def sectionNames (lines : List ManifestLine) : List String :=
  ((lines.filterMap header?).filter (· ≠ "")).eraseDups

/-! ### One more line -/

theorem owner_append_singleton (lines : List ManifestLine) (line : ManifestLine) {i : Nat}
    (hi : i ≤ lines.length) : owner (lines ++ [line]) i = owner lines i := by
  unfold owner
  rw [List.take_append_of_le_length hi]

/-- The section that the next line will belong to. -/
def lastOwner (lines : List ManifestLine) : String :=
  owner lines lines.length

theorem lastOwner_append_singleton (lines : List ManifestLine) (line : ManifestLine) :
    lastOwner (lines ++ [line]) = line.header?.getD (lastOwner lines) := by
  unfold lastOwner owner
  rw [List.take_length, List.take_length, List.reverse_append, List.reverse_singleton,
    List.singleton_append, List.findSome?_cons]
  cases line.header? <;> rfl

theorem queue_append_singleton (lines : List ManifestLine) (line : ManifestLine) (name : String)
    (kind : OperationKind) :
    queue (lines ++ [line]) name kind = queue lines name kind ++
      (transfer? (lines ++ [line]) name kind (line, lines.length)).toList := by
  have hlast : [(line, lines.length)].filterMap (transfer? (lines ++ [line]) name kind) =
      (transfer? (lines ++ [line]) name kind (line, lines.length)).toList := by
    cases h : transfer? (lines ++ [line]) name kind (line, lines.length) <;> simp [h]
  unfold queue
  rw [List.zipIdx_append, List.filterMap_append, Nat.zero_add, List.zipIdx_singleton, hlast]
  congr 1
  -- the lines that were there have their owners still
  refine List.filterMap_congr fun ⟨l, i⟩ hmem => ?_
  have hi : i < lines.length := by simpa using (List.mem_zipIdx hmem).2.1
  cases l with
  | operation op =>
    simp only [transfer?]
    rw [owner_append_singleton lines line hi.le]
  | header _ => rfl
  | badHeader _ => rfl
  | other _ => rfl

/-- A line that is no operation leaves every section as it is. -/
theorem operationsOf_append_of_not_operation (lines : List ManifestLine) (line : ManifestLine)
    (h : ∀ op, line ≠ .operation op) (name : String) :
    operationsOf (lines ++ [line]) name = operationsOf lines name := by
  have hnone : ∀ kind i, transfer? (lines ++ [line]) name kind (line, i) = none := by
    intro kind i
    cases line with
    | operation op => exact absurd rfl (h op)
    | header _ => rfl
    | badHeader _ => rfl
    | other _ => rfl
  simp [operationsOf, queue_append_singleton, hnone]

/-- An operation goes to the end of its queue, in its own section alone. -/
theorem operationsOf_append_operation (lines : List ManifestLine) (op : Operation)
    (name : String) :
    operationsOf (lines ++ [.operation op]) name =
      if lastOwner lines = name then (operationsOf lines name).push op
      else operationsOf lines name := by
  have howner : owner (lines ++ [.operation op]) lines.length = lastOwner lines :=
    owner_append_singleton lines _ le_rfl
  by_cases hname : lastOwner lines = name
  · rw [if_pos hname]
    obtain ⟨kind, transfer⟩ := op
    cases kind <;>
      simp [operationsOf, queue_append_singleton, transfer?, howner, hname, OperationSet.push]
  · rw [if_neg hname]
    simp [operationsOf, queue_append_singleton, transfer?, howner, hname]

theorem header?_eq_some_iff (line : ManifestLine) (name : String) :
    line.header? = some name ↔ line = .header name := by
  cases line <;> simp [header?]

theorem mem_sectionNames (lines : List ManifestLine) (name : String) :
    name ∈ sectionNames lines ↔ name ≠ "" ∧ .header name ∈ lines := by
  simp [sectionNames, header?_eq_some_iff, and_comm]

theorem eraseDups_append_singleton (names : List String) (name : String) :
    (names ++ [name]).eraseDups =
      if name ∈ names.eraseDups then names.eraseDups else names.eraseDups ++ [name] := by
  rw [List.eraseDups_append]
  by_cases hmem : name ∈ names
  · simp [List.removeAll, hmem]
  · simp [List.removeAll, hmem, List.eraseDups_cons]

theorem sectionNames_append_singleton (lines : List ManifestLine) (line : ManifestLine) :
    sectionNames (lines ++ [line]) =
      match line.header? with
      | none => sectionNames lines
      | some name =>
        if name = "" ∨ name ∈ sectionNames lines then sectionNames lines
        else sectionNames lines ++ [name] := by
  unfold sectionNames
  rw [List.filterMap_append, List.filter_append]
  cases hline : line.header? with
  | none => simp [hline]
  | some name =>
    by_cases hempty : name = ""
    · simp [hline, hempty]
    · have hlast : ([line].filterMap header?).filter (· ≠ "") = [name] := by simp [hline, hempty]
      rw [hlast, eraseDups_append_singleton]
      simp only [hempty, false_or]

theorem nodup_sectionNames (lines : List ManifestLine) : (sectionNames lines).Nodup := by
  unfold sectionNames
  generalize (lines.filterMap header?).filter (· ≠ "") = names
  induction names using List.reverseRecOn with
  | nil => exact List.nodup_nil
  | append_singleton names name ih =>
    rw [eraseDups_append_singleton]
    split
    · exact ih
    · next hmem =>
      rw [List.nodup_append]
      refine ⟨ih, by simp, ?_⟩
      rintro a ha b hb rfl
      rw [List.mem_singleton] at hb
      exact hmem (hb ▸ ha)

/-- An owner is the main set or has a header. -/
theorem owner_mem_sectionNames {lines : List ManifestLine} {i : Nat} (h : owner lines i ≠ "") :
    owner lines i ∈ sectionNames lines := by
  rw [mem_sectionNames]
  refine ⟨h, ?_⟩
  unfold owner at h ⊢
  cases hfind : (lines.take i).reverse.findSome? header? with
  | none =>
    rw [hfind] at h
    exact absurd rfl h
  | some name =>
    obtain ⟨line, hline, hheader⟩ := List.exists_of_findSome?_eq_some hfind
    have hmem : line ∈ lines := List.mem_of_mem_take (List.mem_reverse.1 hline)
    rwa [(header?_eq_some_iff line name).1 hheader] at hmem

/-- A section without a header has no operations, the main set apart. -/
theorem operationsOf_eq_empty {lines : List ManifestLine} {name : String} (hname : name ≠ "")
    (hmem : name ∉ sectionNames lines) : operationsOf lines name = .empty := by
  have howner : ∀ i, owner lines i ≠ name := by
    rintro i rfl
    exact hmem (owner_mem_sectionNames hname)
  have hqueue : ∀ kind, queue lines name kind = [] := by
    intro kind
    unfold queue
    rw [List.filterMap_eq_nil_iff]
    rintro ⟨line, i⟩ -
    cases line <;> simp [transfer?, howner]
  simp [operationsOf, hqueue, OperationSet.empty]

end ManifestLine

/-! ## The manifest of the lines -/

namespace Manifest

open ManifestLine

/-- The manifest that the lines declare: the operations without a section, and each section that has
    a header, with its operations. -/
def declared (lines : List ManifestLine) : Manifest where
  main := operationsOf lines ""
  sections := .tabulate (sectionNames lines) (nodup_sectionNames lines) (operationsOf lines)

theorem keys_declared (lines : List ManifestLine) :
    (declared lines).sections.keys = sectionNames lines :=
  Keyed.keys_tabulate _ (nodup_sectionNames lines) _

theorem section?_declared (lines : List ManifestLine) (name : String) :
    (declared lines).section? name =
      if name ∈ sectionNames lines then some (operationsOf lines name) else none :=
  Keyed.get?_tabulate _ (nodup_sectionNames lines) _ name

/-- Manifests are the same if their sections have the same operations and the same order. -/
theorem ext_section? {m m' : Manifest} (hmain : m.main = m'.main)
    (hkeys : m.sections.keys = m'.sections.keys)
    (hsection : ∀ name, m.section? name = m'.section? name) : m = m' := by
  obtain ⟨main, sections⟩ := m
  obtain ⟨main', sections'⟩ := m'
  simp only [Manifest.mk.injEq]
  exact ⟨hmain, Keyed.ext_get? hkeys hsection⟩

/-! ## Reading -/

/-- What a reader has made of the lines when it has read them. -/
def Reader.after (lines : List ManifestLine) : Reader where
  manifest := declared lines
  current := if lastOwner lines = "" then none else some (lastOwner lines)

/-- A line without a name of its own that is no operation declares nothing. -/
theorem declared_append_of_silent (lines : List ManifestLine) (line : ManifestLine)
    (hop : ∀ op, line ≠ .operation op) (hheader : line.header?.getD "" = "") :
    declared (lines ++ [line]) = declared lines := by
  have hnames : sectionNames (lines ++ [line]) = sectionNames lines := by
    rw [sectionNames_append_singleton]
    cases hline : line.header? with
    | none => rfl
    | some name =>
      rw [hline, Option.getD_some] at hheader
      exact if_pos (Or.inl hheader)
  refine ext_section? (operationsOf_append_of_not_operation lines line hop "") ?_ fun name => ?_
  · rw [keys_declared, keys_declared, hnames]
  · rw [section?_declared, section?_declared, hnames,
      operationsOf_append_of_not_operation lines line hop name]

/-- A header declares its section, which may be there already. -/
theorem declared_append_header (lines : List ManifestLine) {name : String} (hname : name ≠ "") :
    declared (lines ++ [.header name]) = (declared lines).openSection name := by
  have hops := operationsOf_append_of_not_operation lines (.header name) (by simp)
  have hnames : sectionNames (lines ++ [.header name]) =
      if name ∈ sectionNames lines then sectionNames lines else sectionNames lines ++ [name] := by
    rw [sectionNames_append_singleton]
    simp only [header?, hname, false_or]
  refine ext_section? (hops "") ?_ fun other => ?_
  · rw [keys_declared, hnames, openSection, Keyed.keys_update, keys_declared]
  · have hupdate : ((declared lines).openSection name).section? other =
        if other = name then some (((declared lines).section? name).getD .empty)
        else (declared lines).section? other :=
      Keyed.get?_update _ _ _ _
    rw [hupdate, section?_declared, section?_declared, section?_declared, hnames, hops other]
    by_cases hother : other = name
    · subst hother
      by_cases hmem : other ∈ sectionNames lines
      · simp [hmem]
      · simp [hmem, operationsOf_eq_empty hname hmem]
    · by_cases hmem : name ∈ sectionNames lines <;> simp [hmem, hother]

/-- An operation is declared in the section of the last header. -/
theorem declared_append_operation (lines : List ManifestLine) (op : Operation) :
    declared (lines ++ [.operation op]) =
      (declared lines).push (Reader.after lines).current op := by
  have hops := operationsOf_append_operation lines op
  have hnames : sectionNames (lines ++ [.operation op]) = sectionNames lines := by
    rw [sectionNames_append_singleton]
    rfl
  by_cases howner : lastOwner lines = ""
  · -- no section is open, and the operation goes to the main set
    have hcurrent : (Reader.after lines).current = none := if_pos howner
    rw [hcurrent]
    refine ext_section? ?_ ?_ fun name => ?_
    · exact (hops "").trans (if_pos howner)
    · rw [keys_declared, hnames]
      exact (keys_declared lines).symm
    · have hpush : ((declared lines).push none op).section? name = (declared lines).section? name :=
        rfl
      rw [hpush, section?_declared, section?_declared, hnames, hops name]
      by_cases hmem : name ∈ sectionNames lines
      · have hne : lastOwner lines ≠ name :=
          howner ▸ (((mem_sectionNames lines name).1 hmem).1).symm
        rw [if_neg hne]
      · rw [if_neg hmem, if_neg hmem]
  · have hcurrent : (Reader.after lines).current = some (lastOwner lines) := if_neg howner
    -- the section has a header, so it is there to be pushed to
    have hmem : lastOwner lines ∈ sectionNames lines := owner_mem_sectionNames howner
    rw [hcurrent]
    refine ext_section? ?_ ?_ fun name => ?_
    · exact (hops "").trans (if_neg howner)
    · rw [keys_declared, hnames, push, Keyed.keys_update, keys_declared, if_pos hmem]
    · have hpush : ((declared lines).push (some (lastOwner lines)) op).section? name =
          if name = lastOwner lines then
            some ((((declared lines).section? (lastOwner lines)).getD .empty).push op)
          else (declared lines).section? name :=
        Keyed.get?_update _ _ _ _
      rw [hpush, section?_declared, section?_declared, section?_declared, hnames, hops name]
      by_cases hname : name = lastOwner lines
      · subst hname
        simp [hmem]
      · have hname' : ¬ lastOwner lines = name := fun h => hname h.symm
        rw [if_neg hname, if_neg hname']

/-- Reading the lines from the first one on comes to what they declare. -/
theorem foldl_step_eq_after (lines : List ManifestLine) :
    lines.foldl Reader.step ⟨.empty, none⟩ = Reader.after lines := by
  induction lines using List.reverseRecOn with
  | nil => rfl
  | append_singleton lines line ih =>
    rw [List.foldl_append, ih, List.foldl_cons, List.foldl_nil]
    have howner := lastOwner_append_singleton lines line
    unfold Reader.after
    rw [howner]
    cases line with
    | header name =>
      by_cases hname : name = ""
      · subst hname
        rw [declared_append_of_silent lines _ (by simp) rfl]
        simp [Reader.step, header?]
      · rw [declared_append_header lines hname]
        simp [Reader.step, header?, hname]
    | operation op =>
      rw [declared_append_operation lines op]
      rfl
    | badHeader text =>
      rw [declared_append_of_silent lines _ (by simp) rfl]
      rfl
    | other text =>
      rw [declared_append_of_silent lines _ (by simp) rfl]
      rfl

/-- The lines of a manifest that are read have exactly one list of meanings after they were
    filtered, and reading the manifest gives what these lines declare. -/
theorem parse_eq_declared (filter : TextFilter) (text : String) :
    ∃ lines,
      (∀ lines', List.Forall₂ (fun raw line => Means (filter raw) line) (readLines text) lines' ↔
        lines' = lines) ∧
      parse filter text = declared lines := by
  refine ⟨readAll filter text, forall₂_means_iff filter text, ?_⟩
  rw [parse, ofLines, foldl_step_eq_after]
  rfl

end Manifest

end Scaffold
