import Scaffold.Proofs.Manifest.Collecting
import Scaffold.Proofs.Manifest.Display
import Scaffold.Proofs.Manifest.SectionName

set_option autoImplicit false

/-! # Writing manifests

A manifest is written line by line: the operations of the main set, and for each section its header
and its operations. An operation may be written with or without its target if that is its source,
and operations of different kinds in any order (`Manifest.WrittenAs`).

Between the colons of a written line stand tokens (`IsToken`), which a reader finds again. So the
line of an operation has the tokens that make it up (`ofTokens?_full`, `ofTokens?_short`), and that
of a header is read as the header (`ofText_header`). -/

namespace Scaffold

/-! ## How a manifest is written -/

/-- The code of a kind. -/
def OperationKind.code : OperationKind → String
  | .copySubtree | .copyFile => "C"
  | .filterFile => "F"

namespace Operation

/-- The source of an operation as it is written: a star stands below a directory. -/
def writtenSource (op : Operation) : String :=
  match op.kind with
  | .copySubtree => op.transfer.source.display ++ "/*"
  | .copyFile | .filterFile => op.transfer.source.display

/-- The lines that an operation can be written as. -/
inductive WrittenAs (op : Operation) : String → Prop
  | full : WrittenAs op
      (op.kind.code ++ ": " ++ op.writtenSource ++ " : " ++ op.transfer.target.display)
  | short (h : op.transfer.target = op.transfer.source) :
      WrittenAs op (op.kind.code ++ ": " ++ op.writtenSource)

instance (op : Operation) (line : String) : Decidable (op.WrittenAs line) :=
  decidable_of_iff (line = op.kind.code ++ ": " ++ op.writtenSource ++ " : " ++
        op.transfer.target.display ∨
      op.transfer.target = op.transfer.source ∧
        line = op.kind.code ++ ": " ++ op.writtenSource) <| by
    constructor
    · rintro (rfl | ⟨hsame, rfl⟩)
      · exact .full
      · exact .short hsame
    · rintro (_ | hsame)
      · exact Or.inl rfl
      · exact Or.inr ⟨hsame, rfl⟩

end Operation

/-- The lines are the operations of the set, each kind in the order of its queue. -/
def OperationSet.WrittenAs (set : OperationSet) (lines : List String) : Prop :=
  ∃ ops, set.IsOrder ops ∧ List.Forall₂ Operation.WrittenAs ops lines

theorem OperationSet.exists_writtenAs (set : OperationSet) : ∃ lines, set.WrittenAs lines := by
  refine ⟨set.operations.map fun op => op.kind.code ++ ": " ++ op.writtenSource ++ " : " ++
    op.transfer.target.display, set.operations, set.isOrder_operations, ?_⟩
  rw [List.forall₂_map_right_iff, List.forall₂_same]
  exact fun op _ => .full

namespace Manifest

/-- The lines are the header of the section and its operations. -/
def SectionWrittenAs (entry : String × OperationSet) (lines : List String) : Prop :=
  ∃ rest, entry.2.WrittenAs rest ∧ lines = ("[" ++ entry.1 ++ "]") :: rest

/-- The text is the main operations of the manifest, one in a line, and then its sections. -/
def WrittenAs (m : Manifest) (text : String) : Prop :=
  ∃ main sections, m.main.WrittenAs main ∧
    List.Forall₂ SectionWrittenAs m.sections.entries sections ∧
    text = String.join ((main ++ sections.flatten).map (· ++ "\n"))

theorem exists_writtenAs (m : Manifest) : ∃ text, m.WrittenAs text := by
  choose lines hlines using OperationSet.exists_writtenAs
  refine ⟨_, lines m.main, m.sections.entries.map fun entry =>
    ("[" ++ entry.1 ++ "]") :: lines entry.2, hlines m.main, ?_, rfl⟩
  rw [List.forall₂_map_right_iff, List.forall₂_same]
  exact fun entry _ => ⟨_, hlines entry.2, rfl⟩

end Manifest

/-! ## What can be written -/

/-- A well-formed path on one line. -/
structure PathSpec.IsWritable (spec : PathSpec) : Prop where
  wellFormed : spec.WellFormed
  lineFeed : ∀ segment ∈ spec.segments, '\n' ∉ segment.toList

instance (spec : PathSpec) : Decidable spec.IsWritable :=
  decidable_of_iff (spec.WellFormed ∧ ∀ segment ∈ spec.segments, '\n' ∉ segment.toList)
    ⟨fun ⟨h₁, h₂⟩ => ⟨h₁, h₂⟩, fun ⟨h₁, h₂⟩ => ⟨h₁, h₂⟩⟩

/-- An operation between paths that can be written. -/
structure Operation.IsWritable (op : Operation) : Prop where
  source : op.transfer.source.IsWritable
  target : op.transfer.target.IsWritable

instance (op : Operation) : Decidable op.IsWritable :=
  decidable_of_iff (op.transfer.source.IsWritable ∧ op.transfer.target.IsWritable)
    ⟨fun ⟨h₁, h₂⟩ => ⟨h₁, h₂⟩, fun ⟨h₁, h₂⟩ => ⟨h₁, h₂⟩⟩

/-- A well-formed name on one line. -/
structure SectionName.IsWritable (name : String) : Prop where
  wellFormed : SectionName.WellFormed name
  lineFeed : '\n' ∉ name.toList

instance (name : String) : Decidable (SectionName.IsWritable name) :=
  decidable_of_iff (SectionName.WellFormed name ∧ '\n' ∉ name.toList)
    ⟨fun ⟨h₁, h₂⟩ => ⟨h₁, h₂⟩, fun ⟨h₁, h₂⟩ => ⟨h₁, h₂⟩⟩

/-- A manifest of which all paths and names can be written. -/
structure Manifest.IsWritable (m : Manifest) : Prop where
  main : ∀ op ∈ m.main.operations, op.IsWritable
  name : ∀ entry ∈ m.sections.entries, SectionName.IsWritable entry.1
  operation : ∀ entry ∈ m.sections.entries, ∀ op ∈ entry.2.operations, op.IsWritable

instance (m : Manifest) : Decidable m.IsWritable :=
  decidable_of_iff ((∀ op ∈ m.main.operations, op.IsWritable) ∧
      (∀ entry ∈ m.sections.entries, SectionName.IsWritable entry.1) ∧
      ∀ entry ∈ m.sections.entries, ∀ op ∈ entry.2.operations, op.IsWritable)
    ⟨fun ⟨h₁, h₂, h₃⟩ => ⟨h₁, h₂, h₃⟩, fun ⟨h₁, h₂, h₃⟩ => ⟨h₁, h₂, h₃⟩⟩

/-! ## Written operations -/

namespace PathSpec.IsWritable

variable {spec : PathSpec}

theorem colon_not_mem (h : spec.IsWritable) : ':' ∉ spec.display.toList :=
  PathSpec.not_mem_display (by decide) fun segment hsegment =>
    (h.wellFormed.isReadable segment hsegment).colon_not_mem

theorem lineFeed_not_mem (h : spec.IsWritable) : '\n' ∉ spec.display.toList :=
  PathSpec.not_mem_display (by decide) h.lineFeed

theorem display_ne_nil (h : spec.IsWritable) : spec.display.toList ≠ [] := by
  intro hnil
  have hsplit := h.wellFormed.splitChars_display
  rw [hnil] at hsplit
  have hmem : [] ∈ spec.segments.map String.toList := hsplit ▸ List.mem_singleton_self []
  exact (h.wellFormed.piece hmem).1 rfl

end PathSpec.IsWritable

/-- A text between two colons: it is trimmed, not empty, and holds no colon and no line feed. -/
structure IsToken (token : List Char) : Prop where
  ne_nil : token ≠ []
  trimmed : Text.trimChars token = token
  colon_not_mem : ':' ∉ token
  lineFeed_not_mem : '\n' ∉ token

theorem PathSpec.IsWritable.isToken_display {spec : PathSpec} (h : spec.IsWritable) :
    IsToken spec.display.toList :=
  ⟨h.display_ne_nil, h.wellFormed.trimChars_display, h.colon_not_mem, h.lineFeed_not_mem⟩

namespace Operation

variable {op : Operation}

theorem toList_writtenSource (op : Operation) :
    op.writtenSource.toList = op.transfer.source.display.toList ++
      if op.kind = .copySubtree then ['/', '*'] else [] := by
  unfold writtenSource
  cases op.kind with
  | copySubtree =>
    rw [String.toList_append]
    rfl
  | copyFile => simp
  | filterFile => simp

theorem IsWritable.isToken_writtenSource (h : op.IsWritable) : IsToken op.writtenSource.toList := by
  obtain ⟨hne, htrim, hcolon, hlineFeed⟩ := h.source.isToken_display
  rw [toList_writtenSource]
  split_ifs with hkind
  · have hstar : Text.trimChars ['*'] = ['*'] := by decide
    refine ⟨by simp, ?_, by simp [hcolon], by simp [hlineFeed]⟩
    have hends := Text.trimChars_append_append htrim hstar hne (List.cons_ne_nil _ _) ['/']
    rwa [List.append_assoc] at hends
  · rw [List.append_nil]
    exact ⟨hne, htrim, hcolon, hlineFeed⟩

theorem IsWritable.parse?_writtenSource (h : op.IsWritable) :
    PathSpec.parse? op.writtenSource = some op.transfer.source := by
  unfold writtenSource
  cases op.kind with
  | copySubtree => exact h.source.wellFormed.parse?_display_star
  | copyFile => exact h.source.wellFormed.parse?_display
  | filterFile => exact h.source.wellFormed.parse?_display

/-- The code and the source as they are written tell the kind. -/
theorem IsWritable.kind?_written (h : op.IsWritable) :
    kind? op.kind.code op.writtenSource = some op.kind := by
  unfold writtenSource
  cases op.kind with
  | copySubtree => exact kind?_copy_of_star _
  | copyFile =>
    refine (kind?_copy_eq_copyFile_iff _).2 ?_
    rintro ⟨path, hpath⟩
    exact h.source.wellFormed.display_ne_star path hpath
  | filterFile => rfl

theorem IsWritable.ofTokens?_full (h : op.IsWritable) :
    ofTokens? [op.kind.code, op.writtenSource, op.transfer.target.display] = some op := by
  simp only [ofTokens?, h.kind?_written, h.parse?_writtenSource,
    h.target.wellFormed.parse?_display]

theorem IsWritable.ofTokens?_short (h : op.IsWritable)
    (hsame : op.transfer.target = op.transfer.source) :
    ofTokens? [op.kind.code, op.writtenSource] = some op := by
  have hop : (⟨op.kind, op.transfer.source, op.transfer.source⟩ : Operation) = op := by
    obtain ⟨kind, source, target⟩ := op
    obtain rfl : target = source := hsame
    rfl
  simp only [ofTokens?, h.kind?_written, h.parse?_writtenSource, hop]

end Operation

/-! ## The tokens of a written line -/

namespace ManifestLine

theorem trimChars_padded {token : List Char} (h : IsToken token) :
    Text.trimChars (' ' :: token) = token := by
  have hblank : Text.isBlank ' ' = true := by decide
  rw [Text.trimChars_cons_of_isBlank hblank, h.trimmed]

theorem tokens_short {code source : List Char} (hcode : IsToken code) (hsource : IsToken source) :
    tokens (code ++ ':' :: ' ' :: source) = [code, source] := by
  have hpadded : ':' ∉ ' ' :: source := by simp [hsource.colon_not_mem]
  unfold tokens
  rw [Text.splitChars_append_sep, Text.splitChars_of_not_mem hcode.colon_not_mem,
    Text.splitChars_of_not_mem hpadded, List.singleton_append, List.map_cons, List.map_singleton,
    hcode.trimmed, trimChars_padded hsource]

theorem tokens_full {code source target : List Char} (hcode : IsToken code)
    (hsource : IsToken source) (htarget : IsToken target) :
    tokens (code ++ ':' :: ' ' :: source ++ ' ' :: ':' :: ' ' :: target) =
      [code, source, target] := by
  have hblank : Text.isBlank ' ' = true := by decide
  have hpadded : ':' ∉ ' ' :: source ++ [' '] := by simp [hsource.colon_not_mem]
  have hpadded' : ':' ∉ ' ' :: target := by simp [htarget.colon_not_mem]
  have hsplit : code ++ ':' :: ' ' :: source ++ ' ' :: ':' :: ' ' :: target =
      code ++ ':' :: ((' ' :: source ++ [' ']) ++ ':' :: ' ' :: target) := by
    simp
  unfold tokens
  rw [hsplit, Text.splitChars_append_sep, Text.splitChars_append_sep,
    Text.splitChars_of_not_mem hcode.colon_not_mem, Text.splitChars_of_not_mem hpadded,
    Text.splitChars_of_not_mem hpadded', List.singleton_append, List.singleton_append,
    List.map_cons, List.map_cons, List.map_singleton, hcode.trimmed,
    Text.trimChars_append_of_isBlank hblank, trimChars_padded hsource, trimChars_padded htarget]

/-- A trimmed line whose tokens make up an operation is that operation. -/
theorem ofText_of_tokens {line : String} (htrim : Text.trimChars line.toList = line.toList)
    {code : List Char} {rest : List (List Char)} (htokens : tokens line.toList = code :: rest)
    (hcode : code.head? ≠ some '[') {op : Operation}
    (hop : Operation.ofTokens? ((code :: rest).map String.ofList) = some op) :
    ofText line = .operation op := by
  unfold ofText ofTrimmed
  rw [htrim, htokens]
  simp only [List.headD_cons, if_neg hcode, hop]

theorem toList_header (name : String) :
    ("[" ++ name ++ "]").toList = '[' :: (name.toList ++ [']']) := by
  rw [String.toList_append, String.toList_append]
  rfl

theorem trimChars_header (name : List Char) :
    Text.trimChars ('[' :: (name ++ [']'])) = '[' :: (name ++ [']']) :=
  @Text.trimChars_append_append ['['] [']'] (by decide) (by decide) (by decide) (by decide) name

/-- A name that is trimmed and balanced is read from its header. -/
theorem ofText_header {name : String} (h : SectionName.WellFormed name) :
    ofText ("[" ++ name ++ "]") = .header name := by
  have hcolon : ':' ∉ '[' :: (name.toList ++ [']']) := by simp [h.colon_not_mem]
  have htokens : tokens ('[' :: (name.toList ++ [']'])) = ['[' :: (name.toList ++ [']'])] := by
    unfold tokens
    rw [Text.splitChars_of_not_mem hcolon, List.map_singleton, trimChars_header]
  have htrimmed := h.trimmed
  rw [Text.trim] at htrimmed
  unfold ofText ofTrimmed
  rw [toList_header, trimChars_header, htokens]
  simp only [List.headD_cons, List.head?_cons, if_true,
    SectionName.inBrackets?_of_isBalanced h.isBalanced, htrimmed]

end ManifestLine

end Scaffold
