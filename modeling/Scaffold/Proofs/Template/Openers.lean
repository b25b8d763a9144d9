import Scaffold.Proofs.Template.Ends
import Scaffold.Proofs.Template.References
import Scaffold.Proofs.Template.Untouched
import Scaffold.Proofs.Text.Upper

set_option autoImplicit false

/-! # Openers by name

A text that is to hold openers after substitution can refer to the opener by its name instead: in
place of every opener it says `${{${{}}`. What stands around an opener does not matter: a dollar
sign and a brace in front of it are a stray brace, since a dollar sign follows, and braces behind it
come too late to close anything (`value_read_nameOpenersChars`). Only two dollar signs in a row
would be read as an escape. The name of the opener is no other name in upper case, so every table that was
built without setting it has it still. -/

namespace Scaffold

namespace Template

/-- The characters with a reference to the opener in place of every opener. -/
def nameOpenersChars : List Char → List Char
  | '$' :: '{' :: '{' :: text => ['$', '{', '{', '$', '{', '{', '}', '}'] ++ nameOpenersChars text
  | c :: text => c :: nameOpenersChars text
  | [] => []

/-- The text with a reference to the opener in place of every opener. -/
def nameOpeners (text : String) : String :=
  String.ofList (nameOpenersChars text.toList)

theorem head?_nameOpenersChars (text : List Char) :
    (nameOpenersChars text).head? = text.head? := by
  fun_cases nameOpenersChars text <;> rfl

theorem nameOpenersChars_cons {c : Char} {text : List Char}
    (h : ¬ ['$', '{', '{'] <+: c :: text) :
    nameOpenersChars (c :: text) = c :: nameOpenersChars text := by
  rw [nameOpenersChars]
  rintro rest rfl rfl
  exact h ⟨rest, rfl⟩

/-- Two braces at the beginning have stood there before. -/
theorem braces_of_nameOpenersChars {text : List Char}
    (h : ['{', '{'] <+: nameOpenersChars text) : ['{', '{'] <+: text := by
  obtain ⟨after, hafter⟩ := h
  have hhead := head?_nameOpenersChars text
  rw [← hafter] at hhead
  obtain ⟨rest, rfl⟩ := List.head?_eq_some_iff.1 hhead.symm
  rw [nameOpenersChars_cons (by simp)] at hafter
  have hhead' := head?_nameOpenersChars rest
  rw [← (List.cons.inj hafter).2] at hhead'
  obtain ⟨rest', rfl⟩ := List.head?_eq_some_iff.1 hhead'.symm
  exact List.prefix_append ['{', '{'] rest'

/-! ## Reading -/

/-- A dollar sign that opens nothing and escapes nothing stands for itself. -/
theorem value_read_dollar_cons (vars : VariableTable) {text : List Char}
    (hdollar : text.head? ≠ some '$') (hbraces : ¬ ['{', '{'] <+: text) :
    (read ('$' :: text)).value vars = '$' :: (read text).value vars := by
  cases text with
  | nil => rfl
  | cons c rest =>
    have hc : c ≠ '$' := fun hc => hdollar (by rw [hc]; rfl)
    rw [value_read_cons_of_ne vars hc]
    by_cases hbrace : c = '{'
    · subst hbrace
      cases rest with
      | nil => rfl
      | cons d rest =>
        have hd : d ≠ '{' := by
          rintro rfl
          exact hbraces (List.prefix_append ['{', '{'] rest)
        by_cases hstray : d = '$'
        · subst hstray
          exact value_read_source_append vars .strayBrace rfl
        · rw [value_read_cons_of_ne vars hstray]
          exact value_read_source_append vars (.braceAnd d) ⟨hd, hstray⟩
    · exact value_read_source_append vars (.dollarAnd c) ⟨hc, hbrace⟩

/-- A reference to the opener stands for the opener, whatever comes behind it. -/
theorem value_read_reference_opener {vars : VariableTable}
    (hopener : vars.resolve VariableTable.opener = some VariableTable.opener) (rest : List Char) :
    (read (['$', '{', '{', '$', '{', '{', '}', '}'] ++ rest)).value vars =
      ['$', '{', '{'] ++ (read rest).value vars := by
  have hname : String.ofList ['$', '{', '{'] = VariableTable.opener := rfl
  have hvalue : (Piece.reference ['$', '{', '{']).value vars = ['$', '{', '{'] := by
    simp only [Piece.value, hname, hopener]
    rfl
  rw [← hvalue]
  refine value_read_source_append vars (.reference ['$', '{', '{']) ?_
  show ¬ ['}', '}'] <:+: _
  decide

theorem value_read_nameOpenersChars {vars : VariableTable}
    (hopener : vars.resolve VariableTable.opener = some VariableTable.opener) {text : List Char}
    (hescape : ¬ ['$', '$'] <:+: text) : (read (nameOpenersChars text)).value vars = text := by
  fun_induction nameOpenersChars text with
  | case1 rest ih =>
    have hrest : rest <:+: '$' :: '{' :: '{' :: rest :=
      (List.suffix_append ['$', '{', '{'] rest).isInfix
    rw [value_read_reference_opener hopener, ih fun h => hescape (h.trans hrest)]
    rfl
  | case2 c rest hcases ih =>
    have hopens : ¬ ['$', '{', '{'] <+: c :: rest := by
      rintro ⟨after, hafter⟩
      obtain ⟨rfl, rfl⟩ := List.cons.inj hafter
      exact hcases after rfl rfl
    have hbehind := ih fun h => hescape (h.trans (List.suffix_cons c rest).isInfix)
    by_cases hc : c = '$'
    · subst hc
      rw [value_read_dollar_cons vars ?_ ?_, hbehind]
      · rw [head?_nameOpenersChars]
        intro hhead
        obtain ⟨after, rfl⟩ := List.head?_eq_some_iff.1 hhead
        exact hescape (List.prefix_append ['$', '$'] after).isInfix
      · intro hbraces
        exact hopens ((List.prefix_cons_inj '$').2 (braces_of_nameOpenersChars hbraces))
    · rw [value_read_cons_of_ne vars hc, hbehind]
  | case3 => rfl

end Template

/-! ## Tables that keep the opener -/

namespace VariableTable

/-- The table is built without setting the opener. -/
def LeavesOpener (vars : VariableTable) : Prop :=
  ∃ assignments : List (String × String),
    (∀ assignment ∈ assignments, assignment.1 ≠ opener) ∧ vars = initial.setAll assignments

theorem isCaseless_of_mem_opener : ∀ c ∈ opener.toList, Text.IsCaseless c := by
  have hdata :
      opener.toList.all (fun c => c != '\x00' && !Text.upperMapping.reaches c.toNat) = true := by
    decide
  intro c hc
  have hboth := List.all_eq_true.1 hdata c hc
  rw [Bool.and_eq_true, bne_iff_ne, Bool.not_eq_true'] at hboth
  exact Text.isCaseless_of_reaches hboth.1 hboth.2

theorem upper_opener : Text.upper opener = opener := by decide

/-- Whatever else is set, the opener stands for itself. -/
theorem LeavesOpener.get?_opener {vars : VariableTable} (h : vars.LeavesOpener) :
    vars.get? opener = some opener := by
  obtain ⟨assignments, hnames, rfl⟩ := h
  rw [get?_setAll_of_ne]
  · unfold get? initial
    rw [upper_opener, Keyed.get?_insert, if_pos rfl]
  · intro assignment hassignment hupper
    rw [upper_opener] at hupper
    exact hnames assignment hassignment (Text.eq_of_upper_eq isCaseless_of_mem_opener hupper.symm)

theorem LeavesOpener.resolve_opener {vars : VariableTable} (h : vars.LeavesOpener) :
    vars.resolve opener = some opener := by
  have hparts : accessParts opener.toList = (opener.toList, []) := by decide
  unfold resolve
  rw [hparts]
  dsimp only
  rw [String.ofList_toList, h.get?_opener]
  rfl

/-- The names of a project's variables. -/
def projectNames : List String :=
  ["ProgramName", "ProgramName-Lower", "ProgramName-Upper", "GameTitle", "AppIdentifier",
    "Orientation-IsLandscapeCppBool", "Orientation-Android", "Orientation-iOS",
    "Resolution-WinPC"] ++ idNames

theorem map_fst_project (o : ProjectOptions) (ids : ProjectIds) :
    (o.assignments ++ ids.assignments).map Prod.fst = projectNames := by
  unfold ProjectOptions.assignments
  cases o.orientation <;> rfl

theorem leavesOpener_forProject (o : ProjectOptions) (ids : ProjectIds) :
    (forProject o ids).LeavesOpener := by
  refine ⟨o.assignments ++ ids.assignments, fun assignment hassignment => ?_, rfl⟩
  have hnames : ∀ name ∈ projectNames, name ≠ opener := by decide
  rw [← map_fst_project o ids] at hnames
  exact hnames _ (List.mem_map_of_mem hassignment)

end VariableTable

/-- Substitution turns references to the opener into openers: a text without two dollar signs in a
    row comes out as it was before its openers were named, for every table that was built without
    setting the opener. The tables of projects are such tables. -/
theorem substitute_nameOpeners (vars : VariableTable) (hvars : vars.LeavesOpener) (text : String)
    (hescape : ¬ ∃ before after, text = before ++ "$$" ++ after) :
    substitute vars (Template.nameOpeners text) = text ∧
      ∀ o ids, substitute (.forProject o ids) (Template.nameOpeners text) = text := by
  have hchars : ¬ ['$', '$'] <:+: text.toList := fun hinfix =>
    hescape (Template.exists_append_of_infix hinfix)
  have hsubstitute : ∀ table : VariableTable, table.LeavesOpener →
      substitute table (Template.nameOpeners text) = text := by
    intro table htable
    unfold Template.nameOpeners
    rw [← String.toList_inj, toList_substitute,
      Template.value_read_nameOpenersChars htable.resolve_opener hchars]
  exact ⟨hsubstitute vars hvars, fun o ids =>
    hsubstitute _ (VariableTable.leavesOpener_forProject o ids)⟩

/-- An opener behind a stray brace and in front of braces that would close it. -/
def strayBraceText : String :=
  "$\x7b$\x7b\x7bname\x7d\x7d$"

theorem substitute_nameOpeners_strayBrace :
    (VariableTable.initial.set "name" "value").LeavesOpener ∧
    (¬ ∃ before after, strayBraceText = before ++ "$$" ++ after) ∧
    substitute (VariableTable.initial.set "name" "value") (Template.nameOpeners strayBraceText) =
      strayBraceText := by
  have hvars : (VariableTable.initial.set "name" "value").LeavesOpener :=
    ⟨[("name", "value")], by decide, rfl⟩
  have hescape : ¬ ∃ before after, strayBraceText = before ++ "$$" ++ after :=
    Template.not_exists_append (by decide)
  exact ⟨hvars, hescape, (substitute_nameOpeners _ hvars _ hescape).1⟩

end Scaffold
