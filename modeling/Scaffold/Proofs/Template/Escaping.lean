import Scaffold.Proofs.Template.Reading

set_option autoImplicit false

/-! # Escaping template texts

A text is escaped by doubling its dollar signs. Read as a template text, an escaped text is one
piece for each of its characters, whatever stands behind it, and the pieces stand for the characters
that were escaped (`value_read_escapeChars_append`). -/

namespace Scaffold.Template

/-- The characters that escape a character. -/
def escapeChar (c : Char) : List Char :=
  if c = '$' then ['$', '$'] else [c]

/-- The characters with every dollar sign doubled. -/
def escapeChars (text : List Char) : List Char :=
  text.flatMap escapeChar

/-- The text with every dollar sign doubled. -/
def escape (text : String) : String :=
  String.ofList (escapeChars text.toList)

/-- The piece that an escaped character is read as. -/
def Piece.ofChar (c : Char) : Piece :=
  if c = '$' then .escapedDollar else .char c

theorem source_ofChar (c : Char) : (Piece.ofChar c).source = escapeChar c := by
  unfold Piece.ofChar escapeChar
  split_ifs <;> rfl

theorem value_ofChar (vars : VariableTable) (c : Char) : (Piece.ofChar c).value vars = [c] := by
  unfold Piece.ofChar
  split_ifs with hc
  · rw [hc]
    rfl
  · rfl

theorem fits_ofChar (c : Char) (rest : List Char) : (Piece.ofChar c).Fits rest := by
  unfold Piece.ofChar
  split_ifs with hc
  · exact trivial
  · exact hc

/-! ## Reading an escaped text -/

theorem Reads.escapeChars_append {rest : List Char} {r : Reading} (h : Reads rest r)
    (text : List Char) :
    Reads (escapeChars text ++ rest) ⟨text.map Piece.ofChar ++ r.pieces, r.tail⟩ := by
  induction text with
  | nil => exact h
  | cons c text ih =>
    have hpiece := Reads.piece (Piece.ofChar c) (fits_ofChar c _) ih
    rwa [source_ofChar, ← List.append_assoc] at hpiece

theorem value_read_escapeChars_append (vars : VariableTable) (text rest : List Char) :
    (read (escapeChars text ++ rest)).value vars = text ++ (read rest).value vars := by
  obtain ⟨r, hr⟩ := exists_reads rest
  have hpieces : (text.map Piece.ofChar).flatMap (Piece.value vars) = text := by
    rw [List.flatMap_map]
    simp [value_ofChar]
  rw [← (hr.escapeChars_append text).eq_read, ← hr.eq_read]
  unfold Reading.value
  rw [List.flatMap_append, hpieces, List.append_assoc]

/-- Substitution undoes escaping. -/
theorem substitute_escape (vars : VariableTable) (text : String) :
    substitute vars (escape text) = text := by
  have hvalue := value_read_escapeChars_append vars text.toList []
  rw [List.append_nil] at hvalue
  unfold substitute escape
  rw [String.toList_ofList, hvalue]
  show String.ofList (text.toList ++ []) = text
  rw [List.append_nil, String.ofList_toList]

/-- Escaped text stands for itself, whatever comes behind it: it neither completes nor breaks what
    the text behind it refers to. -/
theorem substitute_escape_append (vars : VariableTable) (text rest : String) :
    substitute vars (escape text ++ rest) = text ++ substitute vars rest ∧
      substitute vars (escape text) = text := by
  refine ⟨?_, substitute_escape vars text⟩
  unfold substitute escape
  rw [String.toList_append, String.toList_ofList, value_read_escapeChars_append, String.ofList_append,
    String.ofList_toList]

/-- An escaped opener and the braces behind it do not make a reference. -/
example (vars : VariableTable) : substitute vars (escape "$\x7b" ++ "\x7bx\x7d\x7d") =
    "$\x7b\x7bx\x7d\x7d" := rfl

/-! ## The characters of an escaped text -/

theorem mem_escapeChars {c : Char} {text : List Char} : c ∈ escapeChars text ↔ c ∈ text := by
  have hone : ∀ d, c ∈ escapeChar d ↔ c = d := by
    intro d
    unfold escapeChar
    split_ifs with hd <;> simp [hd]
  unfold escapeChars
  simp [List.mem_flatMap, hone]

theorem head?_escapeChars (text : List Char) : (escapeChars text).head? = text.head? := by
  cases text with
  | nil => rfl
  | cons c text =>
    unfold escapeChars escapeChar
    rw [List.flatMap_cons]
    split_ifs with hc <;> simp [hc]

theorem getLast?_escapeChars (text : List Char) : (escapeChars text).getLast? = text.getLast? := by
  induction text using List.reverseRecOn with
  | nil => rfl
  | append_singleton text c ih =>
    unfold escapeChars
    rw [List.flatMap_append, List.getLast?_concat, List.flatMap_singleton]
    unfold escapeChar
    split_ifs with hc <;> simp [hc]

end Scaffold.Template
