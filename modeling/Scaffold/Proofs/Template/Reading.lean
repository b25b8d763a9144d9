import Mathlib.Data.List.Infix
import Scaffold.Template

set_option autoImplicit false

/-! # The grammar of template texts

`read` is a scanner with a mode. This file says which readings a text has without speaking of the
scanner: `Reads` puts a text together from the sources of its pieces and what its tail leaves. The
grammar is unambiguous and every text belongs to it, and the scanner finds the one reading
(`existsUnique_reads`). No variables occur in it, so what a reference stands for is never read.

The scanner collects the access of a reference in two modes. Both are `within` of the characters
read since the opener, which is the invariant that carries the proof: as long as no two closing
braces have come, the scanner stays within all that it has read. -/

namespace Scaffold.Template

/-! ## Readings of a text -/

/-- Whether two closing braces stand next to each other in a text. -/
def Closes (text : List Char) : Prop :=
  ['}', '}'] <:+: text

/-- The text that a piece is written as. -/
def Piece.source : Piece → List Char
  | .char c => [c]
  | .escapedDollar => ['$', '$']
  | .dollarAnd c => ['$', c]
  | .braceAnd c => ['$', '{', c]
  | .strayBrace => ['$', '{']
  | .reference access => ['$', '{', '{'] ++ access ++ ['}', '}']

/-- Whether a piece may stand in front of `rest`. A stray brace needs a dollar sign behind it, and
    the braces that close a reference are the first two next to each other. -/
def Piece.Fits (rest : List Char) : Piece → Prop
  | .char c => c ≠ '$'
  | .escapedDollar => True
  | .dollarAnd c => c ≠ '$' ∧ c ≠ '{'
  | .braceAnd c => c ≠ '{' ∧ c ≠ '$'
  | .strayBrace => rest.head? = some '$'
  | .reference access => ¬ Closes (access ++ ['}'])

/-- Whether a tail is unfinished: nothing in it closes an opened reference. -/
def Tail.Fits : Tail → Prop
  | .none | .dollar | .brace => True
  | .unclosed text => ¬ Closes text

/-- The text can be read as the pieces and the tail. -/
inductive Reads : List Char → Reading → Prop
  | tail (t : Tail) (ht : t.Fits) : Reads t.value ⟨[], t⟩
  | piece (p : Piece) {rest : List Char} {r : Reading} (hp : p.Fits rest) (hr : Reads rest r) :
      Reads (p.source ++ rest) ⟨p :: r.pieces, r.tail⟩

/-! ## Closing braces -/

theorem not_closes_nil : ¬ Closes [] := by
  unfold Closes
  simp

theorem closes_append_pair (before after : List Char) : Closes (before ++ '}' :: '}' :: after) :=
  ⟨before, after, by simp⟩

/-- Closing braces come with the first character or behind it. -/
theorem closes_cons_iff (c : Char) (text : List Char) :
    Closes (c :: text) ↔ (c = '}' ∧ text.head? = some '}') ∨ Closes text := by
  unfold Closes
  rw [List.infix_cons_iff]
  refine or_congr_left ?_
  cases text with
  | nil => simp
  | cons d rest =>
    simp only [List.cons_prefix_cons, List.nil_prefix, and_true, List.head?_cons,
      Option.some.injEq]
    constructor
    · rintro ⟨rfl, rfl⟩
      exact ⟨rfl, rfl⟩
    · rintro ⟨rfl, rfl⟩
      exact ⟨rfl, rfl⟩

/-- A text with closing braces has first ones. -/
theorem Closes.exists_first {text : List Char} (h : Closes text) :
    ∃ access rest, text = access ++ '}' :: '}' :: rest ∧ ¬ Closes (access ++ ['}']) := by
  induction text with
  | nil => exact absurd h not_closes_nil
  | cons c text ih =>
    by_cases hpair : c = '}' ∧ text.head? = some '}'
    · obtain ⟨rfl, hhead⟩ := hpair
      obtain ⟨rest, rfl⟩ := List.head?_eq_some_iff.1 hhead
      refine ⟨[], rest, rfl, ?_⟩
      rw [List.nil_append, closes_cons_iff]
      simp [not_closes_nil]
    · rcases (closes_cons_iff c text).1 h with h' | h'
      · exact absurd h' hpair
      · obtain ⟨access, rest, rfl, hfirst⟩ := ih h'
        refine ⟨c :: access, rest, rfl, ?_⟩
        rw [List.cons_append, closes_cons_iff]
        rintro (⟨rfl, hhead⟩ | hcloses)
        · -- the pair would stand across `c` and what follows it
          refine hpair ⟨rfl, ?_⟩
          cases access with
          | nil => rfl
          | cons d access => simpa using hhead
        · exact hfirst hcloses

/-! ## The scanner inside a reference -/

/-- The mode in which the characters in `reversed` have been read since the opener. -/
def Mode.within : List Char → Mode
  | [] => .inside []
  | c :: access => if c = '}' then .closing access else .inside (c :: access)

theorem tail_within (reversed : List Char) :
    (Mode.within reversed).tail = .unclosed reversed.reverse := by
  cases reversed with
  | nil => rfl
  | cons c access =>
    by_cases hc : c = '}'
    · subst hc
      rfl
    · simp only [Mode.within, if_neg hc, Mode.tail]

theorem step_within_pair (pieces : List Piece) (reversed : List Char) :
    Progress.step ⟨pieces, .within ('}' :: reversed)⟩ '}' =
      ⟨.reference reversed.reverse :: pieces, .text⟩ := rfl

/-- A character that does not complete the closing braces keeps the scanner within. -/
theorem step_within (pieces : List Piece) (reversed : List Char) (c : Char)
    (h : ¬ (reversed.head? = some '}' ∧ c = '}')) :
    Progress.step ⟨pieces, .within reversed⟩ c = ⟨pieces, .within (c :: reversed)⟩ := by
  cases reversed with
  | nil => by_cases hc : c = '}' <;> simp [Mode.within, Progress.step, hc]
  | cons d access =>
    by_cases hd : d = '}'
    · subst hd
      have hc : c ≠ '}' := fun hc => h ⟨rfl, hc⟩
      simp [Mode.within, Progress.step, hc]
    · by_cases hc : c = '}' <;> simp [Mode.within, Progress.step, hd, hc]

/-- As long as nothing closes the reference, the scanner stays within all that it has read. -/
theorem foldl_step_within (pieces : List Piece) (text reversed : List Char)
    (h : ¬ Closes (reversed.reverse ++ text)) :
    text.foldl Progress.step ⟨pieces, .within reversed⟩ =
      ⟨pieces, .within (text.reverse ++ reversed)⟩ := by
  induction text generalizing reversed with
  | nil => rfl
  | cons c text ih =>
    have hstep : ¬ (reversed.head? = some '}' ∧ c = '}') := by
      rintro ⟨hhead, rfl⟩
      obtain ⟨access, rfl⟩ := List.head?_eq_some_iff.1 hhead
      apply h
      rw [List.reverse_cons, List.append_assoc]
      exact closes_append_pair access.reverse text
    rw [List.foldl_cons, step_within pieces reversed c hstep, ih (c :: reversed) (by simpa using h)]
    simp

/-! ## The scanner finds every reading -/

/-- The scanner reads a fitting piece and is between two pieces again. -/
theorem foldl_step_source (pieces : List Piece) (p : Piece) (rest : List Char)
    (hp : p.Fits rest) :
    (p.source ++ rest).foldl Progress.step ⟨pieces, .text⟩ =
      rest.foldl Progress.step ⟨p :: pieces, .text⟩ := by
  cases p with
  | char c =>
    have hc : c ≠ '$' := hp
    simp [Piece.source, Progress.step, Progress.push, hc]
  | escapedDollar => simp [Piece.source, Progress.step, Progress.push]
  | dollarAnd c =>
    obtain ⟨hdollar, hbrace⟩ := hp
    simp [Piece.source, Progress.step, Progress.push, hdollar, hbrace]
  | braceAnd c =>
    obtain ⟨hbrace, hdollar⟩ := hp
    simp [Piece.source, Progress.step, Progress.push, hdollar, hbrace]
  | strayBrace =>
    -- only the dollar sign behind it tells the scanner that the brace is a piece
    obtain ⟨after, rfl⟩ := List.head?_eq_some_iff.1 hp
    simp [Piece.source, Progress.step, Progress.push]
  | reference access =>
    have hopen : ['$', '{', '{'].foldl Progress.step ⟨pieces, .text⟩ =
        ⟨pieces, .within []⟩ := rfl
    have hsplit : (Piece.reference access).source ++ rest =
        ['$', '{', '{'] ++ ((access ++ ['}']) ++ '}' :: rest) := by
      simp [Piece.source]
    rw [hsplit, List.foldl_append, hopen, List.foldl_append,
      foldl_step_within pieces (access ++ ['}']) [] hp, List.foldl_cons]
    have hreversed : (access ++ ['}']).reverse ++ [] = '}' :: access.reverse := by simp
    rw [hreversed, step_within_pair, List.reverse_reverse]

/-- The scanner leaves an unfinished tail as it is. -/
theorem finish_foldl_step_value (pieces : List Piece) (t : Tail) (ht : t.Fits) :
    (t.value.foldl Progress.step ⟨pieces, .text⟩).finish = ⟨pieces.reverse, t⟩ := by
  cases t with
  | none => rfl
  | dollar => rfl
  | brace => rfl
  | unclosed text =>
    have hopen : (Tail.unclosed text).value.foldl Progress.step ⟨pieces, .text⟩ =
        text.foldl Progress.step ⟨pieces, .within []⟩ := rfl
    rw [hopen, foldl_step_within pieces text [] ht]
    simp [Progress.finish, tail_within]

theorem finish_foldl_step_of_reads {text : List Char} {r : Reading} (h : Reads text r)
    (pieces : List Piece) :
    (text.foldl Progress.step ⟨pieces, .text⟩).finish =
      ⟨pieces.reverse ++ r.pieces, r.tail⟩ := by
  induction h generalizing pieces with
  | tail t ht => rw [finish_foldl_step_value pieces t ht, List.append_nil]
  | piece p hp hr ih =>
    rw [foldl_step_source pieces p _ hp, ih (p :: pieces)]
    simp

/-- A text has no reading but the one that the scanner finds. -/
theorem Reads.eq_read {text : List Char} {r : Reading} (h : Reads text r) : r = read text :=
  (finish_foldl_step_of_reads h []).symm

/-! ## Every text has a reading -/

/-- The text is a tail or begins with a piece. -/
def TailOrPiece (text : List Char) : Prop :=
  (∃ t : Tail, t.Fits ∧ text = t.value) ∨
    ∃ (p : Piece) (rest : List Char), p.Fits rest ∧ text = p.source ++ rest

theorem tailOrPiece_of_opened (text : List Char) : TailOrPiece ('$' :: '{' :: '{' :: text) := by
  by_cases hcloses : Closes text
  · obtain ⟨access, rest, rfl, hfirst⟩ := hcloses.exists_first
    exact Or.inr ⟨.reference access, rest, hfirst, by simp [Piece.source]⟩
  · exact Or.inl ⟨.unclosed text, hcloses, rfl⟩

theorem tailOrPiece_of_dollar (text : List Char) : TailOrPiece ('$' :: text) := by
  cases text with
  | nil => exact Or.inl ⟨.dollar, trivial, rfl⟩
  | cons c rest =>
    by_cases hdollar : c = '$'
    · subst hdollar
      exact Or.inr ⟨.escapedDollar, rest, trivial, rfl⟩
    by_cases hbrace : c = '{'
    · subst hbrace
      cases rest with
      | nil => exact Or.inl ⟨.brace, trivial, rfl⟩
      | cons d rest =>
        by_cases hd : d = '{'
        · subst hd
          exact tailOrPiece_of_opened rest
        by_cases hd' : d = '$'
        · subst hd'
          exact Or.inr ⟨.strayBrace, '$' :: rest, rfl, rfl⟩
        · exact Or.inr ⟨.braceAnd d, rest, ⟨hd, hd'⟩, rfl⟩
    · exact Or.inr ⟨.dollarAnd c, rest, ⟨hdollar, hbrace⟩, rfl⟩

theorem tailOrPiece (text : List Char) : TailOrPiece text := by
  cases text with
  | nil => exact Or.inl ⟨.none, trivial, rfl⟩
  | cons c rest =>
    by_cases hc : c = '$'
    · subst hc
      exact tailOrPiece_of_dollar rest
    · exact Or.inr ⟨.char c, rest, hc, rfl⟩

theorem length_lt_length_source_append (p : Piece) (rest : List Char) :
    rest.length < (p.source ++ rest).length := by
  cases p <;> simp [Piece.source] <;> omega

theorem exists_reads (text : List Char) : ∃ r, Reads text r := by
  -- on the length, since a piece is one character or many
  induction hn : text.length using Nat.strong_induction_on generalizing text with
  | _ n ih =>
    subst hn
    rcases tailOrPiece text with ⟨t, ht, rfl⟩ | ⟨p, rest, hp, rfl⟩
    · exact ⟨_, Reads.tail t ht⟩
    · obtain ⟨r, hr⟩ := ih rest.length (length_lt_length_source_append p rest) rest rfl
      exact ⟨_, Reads.piece p hp hr⟩

/-! ## Values -/

/-- A piece in front of a text is read on its own if it fits there. -/
theorem read_source_append (p : Piece) {rest : List Char} (hp : p.Fits rest) :
    read (p.source ++ rest) = ⟨p :: (read rest).pieces, (read rest).tail⟩ := by
  obtain ⟨r, hr⟩ := exists_reads rest
  rw [← (Reads.piece p hp hr).eq_read, ← hr.eq_read]

theorem value_read_source_append (vars : VariableTable) (p : Piece) {rest : List Char}
    (hp : p.Fits rest) :
    (read (p.source ++ rest)).value vars = p.value vars ++ (read rest).value vars := by
  rw [read_source_append p hp]
  unfold Reading.value
  rw [List.flatMap_cons, List.append_assoc]

/-! ## Substitution -/

/-- Every text has exactly one reading, and whatever the variables are, substitution gives the
    value of that reading. -/
theorem existsUnique_reads (text : String) :
    ∃ r, (∀ r', Reads text.toList r' ↔ r' = r) ∧
      ∀ vars, substitute vars text = String.ofList (r.value vars) := by
  obtain ⟨r, hr⟩ := exists_reads text.toList
  refine ⟨r, fun r' => ⟨fun hr' => ?_, fun h => ?_⟩, fun vars => ?_⟩
  · rw [hr'.eq_read, hr.eq_read]
  · rw [h]
    exact hr
  · rw [substitute, hr.eq_read]

end Scaffold.Template
