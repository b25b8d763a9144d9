import Scaffold.Proofs.Template.Reading

set_option autoImplicit false

/-! # Texts that substitution leaves alone

Only two kinds of pieces are worth something else than what they are written as: escaped dollar
signs and complete references. Both stand in the text as they are written, so a text that holds neither is
worth itself (`substitute_eq_self`), whatever is left unfinished in it. -/

namespace Scaffold

namespace Template

theorem Piece.value_eq_source (vars : VariableTable) {piece : Piece}
    (hescape : piece ≠ .escapedDollar) (hreference : ∀ access, piece ≠ .reference access) :
    piece.value vars = piece.source := by
  cases piece with
  | escapedDollar => exact absurd rfl hescape
  | reference access => exact absurd rfl (hreference access)
  | _ => rfl

/-- What a piece is written as stands in the text. -/
theorem Reads.source_infix {text : List Char} {r : Reading} (h : Reads text r) {piece : Piece}
    (hpiece : piece ∈ r.pieces) : piece.source <:+: text := by
  induction h with
  | tail t ht => exact absurd hpiece List.not_mem_nil
  | piece first hfits hrest ih =>
    rcases List.mem_cons.1 hpiece with rfl | hpiece
    · exact (List.prefix_append _ _).isInfix
    · exact (ih hpiece).trans (List.suffix_append _ _).isInfix

/-- A text is worth itself if all its pieces are. The tail always is. -/
theorem Reads.value_eq_self {text : List Char} {r : Reading} {vars : VariableTable}
    (h : Reads text r) (hpieces : ∀ piece ∈ r.pieces, piece.value vars = piece.source) :
    r.value vars = text := by
  induction h with
  | tail t ht => rfl
  | piece first hfits hrest ih =>
    have hvalue : first.value vars = first.source := hpieces first List.mem_cons_self
    have hbehind := ih fun other hother => hpieces other (List.mem_cons_of_mem _ hother)
    unfold Reading.value at hbehind ⊢
    rw [List.flatMap_cons, List.append_assoc, hvalue, hbehind]

theorem value_read_eq_self (vars : VariableTable) {text : List Char}
    (hescape : ¬ ['$', '$'] <:+: text)
    (hreference : ∀ access, ¬ (Piece.reference access).source <:+: text) :
    (read text).value vars = text := by
  obtain ⟨r, hr⟩ := exists_reads text
  rw [← hr.eq_read]
  refine hr.value_eq_self fun piece hpiece => ?_
  have hsource := hr.source_infix hpiece
  refine Piece.value_eq_source vars ?_ ?_
  · rintro rfl
    exact hescape hsource
  · rintro access rfl
    exact hreference access hsource

/-! ## Strings -/

theorem exists_append_of_infix {part : List Char} {text : String} (h : part <:+: text.toList) :
    ∃ before after, text = before ++ String.ofList part ++ after := by
  obtain ⟨before, after, heq⟩ := h
  refine ⟨String.ofList before, String.ofList after, ?_⟩
  rw [← String.ofList_append, ← String.ofList_append, heq, String.ofList_toList]

theorem not_exists_append {part text : String} (h : ¬ part.toList <:+: text.toList) :
    ¬ ∃ before after, text = before ++ part ++ after := by
  rintro ⟨before, after, rfl⟩
  exact h ⟨before.toList, after.toList, by simp⟩

theorem ofList_source_reference (access : List Char) :
    String.ofList (Piece.reference access).source =
      VariableTable.opener ++ String.ofList access ++ "\x7d\x7d" := by
  unfold Piece.source
  rw [String.ofList_append, String.ofList_append]
  rfl

end Template

/-- A text without two dollar signs next to each other and without a complete reference stays as it
    is, with all that is unfinished in it and at its end. -/
theorem substitute_eq_self (vars : VariableTable) (text : String)
    (hescape : ¬ ∃ before after, text = before ++ "$$" ++ after)
    (hreference : ¬ ∃ before access after,
      text = before ++ VariableTable.opener ++ access ++ "\x7d\x7d" ++ after) :
    substitute vars text = text := by
  have hvalue : (Template.read text.toList).value vars = text.toList := by
    refine Template.value_read_eq_self vars (fun hinfix => ?_) fun access hinfix => ?_
    · exact hescape (Template.exists_append_of_infix hinfix)
    · obtain ⟨before, after, heq⟩ := Template.exists_append_of_infix hinfix
      refine hreference ⟨before, String.ofList access, after, ?_⟩
      rw [heq, Template.ofList_source_reference]
      simp only [String.append_assoc]
  unfold substitute
  rw [hvalue, String.ofList_toList]

/-- Openers behind openers, braces that close nothing, and a lone dollar sign at the end. -/
def unfinishedText : String :=
  "$\x7b$\x7b\x7ba\x7db\x7d$"

theorem substitute_eq_self_unfinished :
    (¬ ∃ before after, unfinishedText = before ++ "$$" ++ after) ∧
    (¬ ∃ before access after,
      unfinishedText = before ++ VariableTable.opener ++ access ++ "\x7d\x7d" ++ after) ∧
    substitute .initial unfinishedText = unfinishedText := by
  have hescape : ¬ ∃ before after, unfinishedText = before ++ "$$" ++ after :=
    Template.not_exists_append (by decide)
  have hcloses : ¬ ∃ before after, unfinishedText = before ++ "\x7d\x7d" ++ after :=
    Template.not_exists_append (by decide)
  have hreference : ¬ ∃ before access after,
      unfinishedText = before ++ VariableTable.opener ++ access ++ "\x7d\x7d" ++ after :=
    fun ⟨_, _, after, heq⟩ => hcloses ⟨_, after, heq⟩
  exact ⟨hescape, hreference, substitute_eq_self .initial _ hescape hreference⟩

end Scaffold
