import Mathlib.Data.List.Induction
import Scaffold.Proofs.Text.Splitting

set_option autoImplicit false

/-! # The lines of a text

A line that holds no line feed comes out of a text as it was written, up to one carriage return at
its end. So lines that are written one after the other, each with a line feed behind it, are read
again (`lineChars_writeLines`). -/

namespace Scaffold.Text

/-- The lines, each with a line feed behind it. -/
def writeLines (lines : List (List Char)) : List Char :=
  lines.flatMap (· ++ ['\n'])

/-- A line as it is read: it holds no line feed, and no carriage return that would belong to one
    stands at its end. -/
structure IsLine (line : List Char) : Prop where
  lineFeed : '\n' ∉ line
  carriageReturn : line.getLast? ≠ some '\r'

theorem dropReturn_cons_cons (c d : Char) (cs : List Char) :
    dropReturn (c :: d :: cs) = c :: dropReturn (d :: cs) := by
  rw [dropReturn]
  simp

theorem dropReturn_eq_self {line : List Char} (h : line.getLast? ≠ some '\r') :
    dropReturn line = line := by
  induction line with
  | nil => rfl
  | cons c cs ih =>
    cases cs with
    | nil =>
      have hc : c ≠ '\r' := fun hc => h (by rw [hc]; rfl)
      simp [dropReturn, hc]
    | cons d cs =>
      rw [List.getLast?_cons_cons] at h
      rw [dropReturn_cons_cons, ih h]

theorem dropReturn_cases (line : List Char) :
    dropReturn line = line ∨ line = dropReturn line ++ ['\r'] := by
  induction line with
  | nil => exact Or.inl rfl
  | cons c cs ih =>
    cases cs with
    | nil =>
      by_cases hc : c = '\r'
      · rw [hc]
        exact Or.inr rfl
      · exact Or.inl (by simp [dropReturn, hc])
    | cons d cs =>
      rw [dropReturn_cons_cons]
      rcases ih with hsame | hreturn
      · exact Or.inl (congrArg (List.cons c) hsame)
      · exact Or.inr (congrArg (List.cons c) hreturn)

theorem dropReturn_append_return (line : List Char) : dropReturn (line ++ ['\r']) = line := by
  induction line with
  | nil => rfl
  | cons c cs ih =>
    cases cs with
    | nil => exact dropReturn_cons_cons c '\r' []
    | cons d cs =>
      rw [List.cons_append, List.cons_append, dropReturn_cons_cons]
      exact congrArg (List.cons c) ih

theorem linesOfPieces_cons_of_ne_nil (piece : List Char) {pieces : List (List Char)}
    (h : pieces ≠ []) :
    linesOfPieces (piece :: pieces) = dropReturn piece :: linesOfPieces pieces := by
  obtain ⟨second, rest, rfl⟩ := List.exists_cons_of_ne_nil h
  cases piece <;> rfl

/-- A text and its first line begin with the same character, unless this ends the line. -/
theorem head?_of_lineChars {c : Char} (hfeed : c ≠ '\n') (hreturn : c ≠ '\r') {cs line : List Char}
    (hcs : cs.head? = some c) (hline : (lineChars cs).head? = some line) :
    line.head? = some c := by
  obtain ⟨piece, pieces, hsplit, hpiece⟩ := exists_head_splitChars hfeed hcs
  obtain ⟨rest, rfl⟩ := List.head?_eq_some_iff.1 hpiece
  unfold lineChars at hline
  rw [hsplit] at hline
  cases pieces with
  | nil =>
    cases hline
    rfl
  | cons next others =>
    rw [linesOfPieces_cons_of_ne_nil _ (by simp), List.head?_cons, Option.some.injEq] at hline
    rw [← hline]
    cases rest with
    | nil => simp [dropReturn, hreturn]
    | cons d rest => rw [dropReturn_cons_cons, List.head?_cons]

/-- The first line of a text ends at its first line feed. -/
theorem lineChars_append_lineFeed {line : List Char} (h : '\n' ∉ line) (rest : List Char) :
    lineChars (line ++ '\n' :: rest) = dropReturn line :: lineChars rest := by
  unfold lineChars
  rw [splitChars_append_sep, splitChars_of_not_mem h, List.singleton_append,
    linesOfPieces_cons_of_ne_nil line (splitChars_ne_nil '\n' rest)]

theorem lineChars_writeLines {lines : List (List Char)} (h : ∀ line ∈ lines, IsLine line) :
    lineChars (writeLines lines) = lines := by
  induction lines with
  | nil => rfl
  | cons line lines ih =>
    have hline := h line List.mem_cons_self
    have hrest := ih fun other hother => h other (List.mem_cons_of_mem _ hother)
    unfold writeLines at hrest ⊢
    rw [List.flatMap_cons, List.append_assoc, List.singleton_append,
      lineChars_append_lineFeed hline.lineFeed, dropReturn_eq_self hline.carriageReturn, hrest]

/-- What begins the text of the lines begins a line, or it ends an empty one. -/
theorem head?_writeLines {lines : List (List Char)} {c : Char}
    (h : (writeLines lines).head? = some c) : c = '\n' ∨ ∃ line ∈ lines, line.head? = some c := by
  cases lines with
  | nil => simp [writeLines] at h
  | cons line lines =>
    cases line with
    | nil => exact Or.inl (Option.some.inj h).symm
    | cons d line => exact Or.inr ⟨d :: line, List.mem_cons_self, h⟩

/-- A mark that does not begin the text is none. -/
theorem dropMark_eq_self {s : String} (h : s.toList.head? ≠ some byteOrderMark) :
    dropMark s = s := by
  unfold dropMark
  split
  · rfl
  · next c cs hs =>
    rw [hs] at h
    exact if_neg fun hc => h (by rw [hc]; rfl)

/-- The mark belongs to the first of two texts, unless this is empty. -/
theorem toList_dropMark_append {s t : String}
    (h : s = "" → t.toList.head? ≠ some byteOrderMark) :
    (dropMark (s ++ t)).toList = (dropMark s).toList ++ t.toList := by
  cases hs : s.toList with
  | nil =>
    obtain rfl := String.toList_eq_nil_iff.1 hs
    rw [String.empty_append, dropMark_eq_self (h rfl)]
    rfl
  | cons c cs =>
    have hst : (s ++ t).toList = c :: (cs ++ t.toList) := by
      rw [String.toList_append, hs, List.cons_append]
    unfold dropMark
    rw [hst, hs]
    dsimp only
    split_ifs
    · rw [String.toList_ofList, String.toList_ofList]
    · rw [hst, hs, List.cons_append]

theorem getLast?_dropMark {s : String} (h : s.toList.getLast? = some '\n') :
    (dropMark s).toList.getLast? = some '\n' := by
  unfold dropMark
  split
  · exact h
  · next c cs hs =>
    split_ifs with hc
    · rw [String.toList_ofList]
      rw [hs] at h
      cases cs with
      | nil =>
        rw [hc] at h
        exact absurd h (by decide)
      | cons d cs => rwa [List.getLast?_cons_cons] at h
    · exact h

end Scaffold.Text
