import Scaffold.Proofs.Run.Filtering
import Scaffold.Proofs.Template.Ends

set_option autoImplicit false

/-! # Byte order marks of filtered files

The mark of a source is taken off before its text is filtered, and the path of the target says
whether one is put on. But taking off a mark does not look for another one behind it, and a value
can bring one along, so the bytes of a target begin with a mark if its path asks for one or if the
filtered text shows one itself (`runOperation_filterFile_mark`). -/

namespace Scaffold

open FileSystem

namespace Utf8

/-- The bytes begin with a byte order mark. -/
def IsMarked (bytes : ByteArray) : Prop :=
  ∃ rest, bytes = mark ++ rest

/-- The character that the bytes of the mark stand for. -/
def markChar : Char := '\uFEFF'

theorem utf8Encode_markChar : [markChar].utf8Encode = mark := by
  decide +kernel

/-- A text begins with the mark as bytes if it does as characters. -/
theorem isMarked_toUTF8_iff (text : String) :
    IsMarked text.toUTF8 ↔ text.toList.head? = some markChar := by
  obtain ⟨cs, rfl⟩ := text.exists_eq_ofList
  rw [String.toUTF8_eq_toByteArray, String.toByteArray_ofList, String.toList_ofList]
  unfold IsMarked
  rw [← utf8Encode_markChar]
  constructor
  · rintro ⟨rest, heq⟩
    -- decoding the first character tells which one it is
    have hdecode : ByteArray.utf8DecodeChar? cs.utf8Encode 0 = some markChar := by
      rw [heq, List.utf8DecodeChar?_utf8Encode_singleton_append]
    cases cs with
    | nil => exact absurd hdecode (by decide +kernel)
    | cons c cs =>
      rw [List.utf8DecodeChar?_utf8Encode_cons] at hdecode
      exact hdecode
  · intro hhead
    obtain ⟨rest, rfl⟩ := List.head?_eq_some_iff.1 hhead
    exact ⟨rest.utf8Encode, List.utf8Encode_cons⟩

end Utf8

namespace Template

/-- A reference only shows what the value of a variable begins with. -/
theorem not_showsFirst {vars : VariableTable} {c : Char} {text : List Char} (htext : c ∉ text)
    (hvalues : ∀ access value, vars.resolve access = some value → value.toList.head? ≠ some c) :
    ¬ ShowsFirst vars c text := by
  intro h
  induction h with
  | char rest => exact htext List.mem_cons_self
  | value access rest hfits hvalue =>
    simp only [Piece.value] at hvalue
    split at hvalue
    · next value hresolve => exact hvalues _ value hresolve hvalue
    · exact absurd hvalue (by simp)
  | blank access hfits hvalue hrest ih =>
    exact ih fun hmem => htext (List.mem_append_right _ hmem)

end Template

namespace Runner

variable {r : Runner} {vars : VariableTable}

theorem isMarked_filteredBytes_iff (hfilter : r.filter = substitute vars) (target text : String) :
    Utf8.IsMarked (r.filteredBytes target text) ↔
      needsMark target = true ∨ Template.ShowsFirst vars Utf8.markChar text.toList := by
  unfold filteredBytes
  cases hmark : needsMark target with
  | true =>
    rw [if_pos rfl]
    exact ⟨fun _ => Or.inl rfl, fun _ => ⟨_, rfl⟩⟩
  | false =>
    have hdollar : Utf8.markChar ≠ '$' := by decide
    rw [if_neg Bool.false_ne_true, ByteArray.empty_append, Utf8.isMarked_toUTF8_iff, hfilter,
      ← Template.head?_value_read_iff vars hdollar]
    unfold substitute
    rw [String.toList_ofList]
    simp

/-- A filter that is counted has read a text, a byte order mark apart, and leaves the filtered bytes
    where its target leads. -/
theorem exists_read_of_filterFile {op : Operation} {fs : FileSystem} (hkind : op.kind = .filterFile)
    (hwritten : (Report.ofEvents (r.runOperation op fs).1).written = 1) :
    ∃ source text, fs.read (r.sourceOf op) = .ok source ∧ Utf8.dropMark source = text.toUTF8 ∧
      (r.runOperation op fs).2.read (r.targetOf op) =
        .ok (r.filteredBytes (r.targetOf op) text) := by
  rw [runOperation_of_filterFile hkind] at hwritten ⊢
  rcases filterFile_cases r (r.sourceOf op) (r.targetOf op) fs with
    ⟨error, made, -, hskip⟩ | ⟨text, place, hread, hopens, hwrote⟩
  · rw [hskip] at hwritten
    exact absurd hwritten Nat.zero_ne_one
  obtain ⟨source, hsource, htext⟩ := readSource_eq_ok_iff.1 hread
  refine ⟨source, text, hsource, htext, ?_⟩
  rw [hwrote]
  have hwrites := hopens.writes_put (r.filteredBytes (r.targetOf op) text)
  obtain ⟨old, -, hresolve⟩ := hopens.exists_file_of_writes hwrites (.refl [] _)
  exact read_eq_ok_iff.2 ⟨place, hresolve, hwrites.lookup_self⟩

/-- The target of a filter that is counted begins with a byte order mark if its path asks for one,
    or if the text behind the mark of the source, if that has one, shows a mark itself: as its first
    character or through the first reference that stands for anything. If there is no mark in the
    text and no value begins with one, the path alone decides. -/
theorem runOperation_filterFile_mark (r : Runner) (vars : VariableTable)
    (hfilter : r.filter = substitute vars) (op : Operation) (hkind : op.kind = .filterFile)
    (fs : FileSystem) (hwritten : (Report.ofEvents (r.runOperation op fs).1).written = 1) :
    ∃ (source : ByteArray) (text : String) (target : ByteArray),
      fs.read (r.sourceOf op) = .ok source ∧
      Utf8.dropMark source = text.toUTF8 ∧
      (r.runOperation op fs).2.read (r.targetOf op) = .ok target ∧
      (Utf8.IsMarked target ↔ needsMark (r.targetOf op) = true ∨
        Template.ShowsFirst vars Utf8.markChar text.toList) ∧
      (Utf8.markChar ∉ text.toList →
        (∀ access value, vars.resolve access = some value →
          value.toList.head? ≠ some Utf8.markChar) →
        (Utf8.IsMarked target ↔ needsMark (r.targetOf op) = true)) := by
  obtain ⟨source, text, hsource, htext, htarget⟩ := exists_read_of_filterFile hkind hwritten
  have hmarked := isMarked_filteredBytes_iff hfilter (r.targetOf op) text
  refine ⟨source, text, _, hsource, htext, htarget, hmarked, fun hmem hvalues => ?_⟩
  rw [hmarked]
  exact or_iff_left (Template.not_showsFirst hmem hvalues)

/-! ## One mark and two -/

/-- A template with one file that holds the text behind a byte order mark. -/
def markedFiles (text : String) : FileSystem :=
  ⟨[("tpl", .directory [("a.txt", .file (Utf8.mark ++ text.toUTF8))]), ("out", .directory [])], []⟩

/-- Filters with the variables that every table has. -/
def markRunner : Runner :=
  ⟨substitute .initial, "tpl", "out", false⟩

/-- Filters the file to a path that asks for no mark. -/
def markFilter : Operation :=
  ⟨.filterFile, ⟨⟨["a.txt"]⟩, ⟨["a.txt"]⟩⟩⟩

/-- One mark is taken off. -/
theorem runOperation_filterFile_one_mark :
    markRunner.filter = substitute .initial ∧ markFilter.kind = .filterFile ∧
    (Report.ofEvents (markRunner.runOperation markFilter (markedFiles "hi")).1).written = 1 ∧
    ∃ target, (markRunner.runOperation markFilter (markedFiles "hi")).2.read
        (markRunner.targetOf markFilter) = .ok target ∧ ¬ Utf8.IsMarked target := by
  have hwritten : (Report.ofEvents (markRunner.runOperation markFilter
      (markedFiles "hi")).1).written = 1 := by
    decide +kernel
  refine ⟨rfl, rfl, hwritten, ?_⟩
  obtain ⟨source, text, target, hsource, htext, htarget, hmarked, -⟩ :=
    runOperation_filterFile_mark markRunner .initial rfl markFilter rfl (markedFiles "hi") hwritten
  refine ⟨target, htarget, ?_⟩
  have hread : (markedFiles "hi").read (markRunner.sourceOf markFilter) =
      .ok (Utf8.mark ++ "hi".toUTF8) := by
    rfl
  obtain rfl := Except.ok.inj (hsource.symm.trans hread)
  have hdrop : Utf8.dropMark (Utf8.mark ++ "hi".toUTF8) = "hi".toUTF8 := by
    decide +kernel
  obtain rfl : "hi" = text := String.toByteArray_inj.1 (hdrop.symm.trans htext)
  have hpath : needsMark (markRunner.targetOf markFilter) = false := by
    decide +kernel
  rw [hmarked, hpath, ← Template.head?_value_read_iff .initial (by decide)]
  decide +kernel

/-- Of two marks the second one stays, whatever the path asks for. -/
theorem exists_filterFile_marked :
    ∃ (r : Runner) (vars : VariableTable) (op : Operation) (fs : FileSystem) (target : ByteArray),
      r.filter = substitute vars ∧ op.kind = .filterFile ∧
      (Report.ofEvents (r.runOperation op fs).1).written = 1 ∧
      (r.runOperation op fs).2.read (r.targetOf op) = .ok target ∧
      needsMark (r.targetOf op) = false ∧ Utf8.IsMarked target :=
  ⟨markRunner, .initial, markFilter, markedFiles "\uFEFFhi", "\uFEFFhi".toUTF8, rfl, rfl,
    by decide +kernel, by rfl, by decide +kernel, ⟨"hi".toUTF8, by decide +kernel⟩⟩

end Runner

end Scaffold
