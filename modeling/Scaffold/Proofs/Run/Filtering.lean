import Scaffold.Proofs.FileSystem.Holding
import Scaffold.Proofs.Run.Naming

set_option autoImplicit false

/-! # Filters have the last word

Filters run after all copies, whatever order the operations were declared in, and they replace what
is there. So whether a filter is counted depends on its source and on whether its target can hold a
file when its turn comes, and what a counted filter wrote is there in the end unless a later filter
wrote to the same place (`run_filters`). Its source is what it was before the run, since the roots
lie apart. -/

namespace Scaffold

open FileSystem

namespace Utf8

theorem decode_eq_ok_iff {bytes : ByteArray} {text : String} :
    decode bytes = .ok text ↔ bytes = text.toUTF8 := by
  unfold decode
  rw [← fromUTF8?_eq_some_iff]
  cases String.fromUTF8? bytes <;> simp

end Utf8

namespace Runner

variable {r : Runner} {fs s : FileSystem} {source target : String}

/-! ## One filter -/

/-- The path leads to a file with the bytes of the text, perhaps behind a byte order mark. -/
def HoldsText (fs : FileSystem) (path text : String) : Prop :=
  ∃ bytes, fs.read path = .ok bytes ∧ Utf8.dropMark bytes = text.toUTF8

theorem readSource_eq_ok_iff {text : String} :
    readSource fs source = .ok text ↔ HoldsText fs source text := by
  unfold readSource HoldsText
  cases fs.read source with
  | error cause => simp
  | ok bytes =>
    simp only [Except.ok.injEq, exists_eq_left']
    rw [← Utf8.decode_eq_ok_iff]
    cases Utf8.decode (Utf8.dropMark bytes) <;> simp

/-- A filter is passed over, or its source is a text and is written where the target leads. -/
theorem filterFile_cases (r : Runner) (source target : String) (fs : FileSystem) :
    (∃ error made, AddsDirectories [] fs made ∧
        r.filterFile source target fs = ([.skipped error], made)) ∨
      ∃ text place, readSource fs source = .ok text ∧
        (fs.makeParent target).2.Opens target place ∧
        r.filterFile source target fs = ([.wrote target],
          (fs.makeParent target).2.put place (.file (r.filteredBytes target text))) := by
  cases hfile : fs.isFile source with
  | false => exact Or.inl ⟨_, fs, .refl [] fs, filterFile_of_not_isFile hfile⟩
  | true =>
    cases hread : readSource fs source with
    | error cause => exact Or.inl ⟨_, fs, .refl [] fs, filterFile_of_error hfile hread⟩
    | ok text =>
      rw [filterFile_of_text hfile hread]
      rcases putFile_cases target (r.filteredBytes target text) fs with
        ⟨cause, hskip⟩ | ⟨place, hopens, hput⟩
      · exact Or.inl ⟨_, _, addsDirectories_makeParent fs target, hskip⟩
      · exact Or.inr ⟨text, place, rfl, hopens, hput⟩

theorem putFile_of_opens {made : FileSystem} {place : List String} {bytes : ByteArray}
    (hmade : fs.makeParent target = (.ok (), made)) (hopens : made.Opens target place) :
    putFile target bytes fs = ([.wrote target], made.put place (.file bytes)) := by
  unfold putFile
  simp only [hmade, write_of_opens hopens]

theorem runOperation_of_filterFile {op : Operation} (h : op.kind = .filterFile)
    (fs : FileSystem) :
    r.runOperation op fs =
      (.started op :: (r.filterFile (r.sourceOf op) (r.targetOf op) fs).1,
        (r.filterFile (r.sourceOf op) (r.targetOf op) fs).2) := by
  rw [performs_operationItems op fs]
  unfold operationItems
  rw [h, performAll_cons, performAll_singleton]
  rfl

/-- A filter is counted exactly if its source is a text and its target can hold a file. -/
theorem written_filterFile_iff (hfs : fs.WellFormed) {op : Operation} (hop : op.IsNamed)
    (hkind : op.kind = .filterFile) :
    (Report.ofEvents (r.runOperation op fs).1).written = 1 ↔
      (∃ text, readSource fs (r.sourceOf op) = .ok text) ∧ fs.CanHold (r.targetOf op) := by
  rw [runOperation_of_filterFile hkind]
  constructor
  · intro hwritten
    rcases filterFile_cases r (r.sourceOf op) (r.targetOf op) fs with
      ⟨error, made, -, hskip⟩ | ⟨text, place, hread, hopens, -⟩
    · rw [hskip] at hwritten
      exact absurd hwritten Nat.zero_ne_one
    · exact ⟨⟨text, hread⟩, _, place, makes_makeParent fs _, hopens⟩
  · rintro ⟨⟨text, hread⟩, hhold⟩
    obtain ⟨bytes, hbytes, -⟩ := readSource_eq_ok_iff.1 hread
    have htarget : ExtendsToName r.outputRoot (r.targetOf op) op.transfer.target.segments :=
      extendsToName_below r.outputRoot hop.target
    obtain ⟨made, place, hmade, hopens⟩ := exists_opens_of_canHold hfs htarget hhold
    rw [filterFile_of_text (isFile_iff.2 ⟨bytes, hbytes⟩) hread, putFile_of_opens hmade hopens]
    rfl

/-! ## One operation after the other -/

/-- The file system that the operation at a position of the set meets. -/
def before (r : Runner) (set : OperationSet) (fs : FileSystem) (n : Nat) : FileSystem :=
  (Step.seq ((set.operations.take n).map r.runOperation) fs).2

/-- The operation at a position of the set is a filter, and it is counted as written. -/
structure Filters (r : Runner) (set : OperationSet) (fs : FileSystem) (n : Nat) (op : Operation) :
    Prop where
  get : set.operations[n]? = some op
  kind : op.kind = .filterFile
  written : (Report.ofEvents (r.runOperation op (r.before set fs n)).1).written = 1

theorem before_succ {set : OperationSet} {n : Nat} {op : Operation}
    (h : set.operations[n]? = some op) :
    r.before set fs (n + 1) = (r.runOperation op (r.before set fs n)).2 := by
  unfold before
  rw [List.take_add_one, h, List.map_append, Step.seq_append]
  rfl

theorem before_succ_of_none {set : OperationSet} {n : Nat} (h : set.operations[n]? = none) :
    r.before set fs (n + 1) = r.before set fs n := by
  unfold before
  rw [List.take_add_one, h, Option.toList_none, List.append_nil]

theorem run_eq_before (r : Runner) (set : OperationSet) (fs : FileSystem) :
    (r.run set fs).2 = r.before set fs set.operations.length := by
  unfold before
  rw [List.take_length]
  rfl

theorem growsWell_before (r : Runner) (set : OperationSet) (fs : FileSystem) {n m : Nat}
    (h : n ≤ m) : GrowsWell (r.before set fs n) (r.before set fs m) := by
  induction h with
  | refl => exact .refl _
  | @step m _ ih =>
    refine ih.trans ?_
    cases hget : set.operations[m]? with
    | none =>
      rw [before_succ_of_none hget]
      exact .refl _
    | some op =>
      rw [before_succ hget, performs_operationItems]
      exact growsWell_performAll r _ _

/-- Behind a filter there are only filters. -/
theorem kind_of_le {set : OperationSet} {n m : Nat} {op op' : Operation}
    (hn : set.operations[n]? = some op) (hkind : op.kind = .filterFile) (hle : n ≤ m)
    (hm : set.operations[m]? = some op') : op'.kind = .filterFile := by
  set copies : List Operation :=
    set.subtreeCopies.map (⟨.copySubtree, ·⟩) ++ set.fileCopies.map (⟨.copyFile, ·⟩) with hcopies
  have hoperations : set.operations = copies ++ set.fileFilters.map (⟨.filterFile, ·⟩) := rfl
  have hbehind : copies.length ≤ n := by
    by_contra hlt
    rw [hoperations, List.getElem?_append_left (Nat.not_le.1 hlt)] at hn
    have hmem := List.mem_of_getElem? hn
    simp only [hcopies, List.mem_append, List.mem_map] at hmem
    rcases hmem with ⟨transfer, -, rfl⟩ | ⟨transfer, -, rfl⟩
    · cases hkind
    · cases hkind
  rw [hoperations, List.getElem?_append_right (hbehind.trans hle)] at hm
  obtain ⟨transfer, -, rfl⟩ := List.mem_map.1 (List.mem_of_getElem? hm)
  rfl

/-! ## The sources of filters -/

theorem isFile_of_nowhere (h : ∀ place, fs.resolve source ≠ .ok (.found place)) :
    fs.isFile source = false := by
  rw [← Bool.not_eq_true, isFile_iff]
  rintro ⟨bytes, hread⟩
  obtain ⟨place, hresolve, -⟩ := read_eq_ok_iff.1 hread
  exact h place hresolve

/-- All that comes up for an operation whose source leads to nothing is passed over. -/
theorem operationItems_of_nowhere {op : Operation}
    (h : ∀ place, fs.resolve (r.sourceOf op) ≠ .ok (.found place)) :
    ∃ item, (item = .skip (.sourceNotFound (r.sourceOf op)) ∨
        item = .filter (r.sourceOf op) (r.targetOf op)) ∧
      r.operationItems op fs = [.start op, item] := by
  have hdirectory : fs.isDirectory (r.sourceOf op) = false := by
    rw [← Bool.not_eq_true, isDirectory_iff_resolve]
    rintro ⟨place, hresolve, -⟩
    exact h place hresolve
  unfold operationItems
  cases op.kind with
  | copySubtree => exact ⟨_, Or.inl rfl, by simp only [hdirectory, Bool.false_eq_true, if_false]⟩
  | copyFile =>
    exact ⟨_, Or.inl rfl, by simp only [isFile_of_nowhere h, Bool.false_eq_true, if_false]⟩
  | filterFile => exact ⟨_, Or.inr rfl, rfl⟩

/-- An operation whose source leads to nothing changes nothing. -/
theorem runOperation_of_nowhere {op : Operation}
    (h : ∀ place, fs.resolve (r.sourceOf op) ≠ .ok (.found place)) :
    (r.runOperation op fs).2 = fs := by
  obtain ⟨item, hitem, heq⟩ := operationItems_of_nowhere h
  rw [performs_operationItems op fs, heq, performAll_cons, performAll_singleton]
  rcases hitem with rfl | rfl
  · rfl
  · unfold perform
    dsimp only
    rw [filterFile_of_not_isFile (isFile_of_nowhere h)]
    rfl

variable {set : OperationSet}

/-- If the template root leads nowhere, it never does, since nothing is made then. -/
theorem exists_leadsTo_or_before_eq (r : Runner) (fs : FileSystem)
    (hset : ∀ op ∈ set.operations, op.IsNamed) :
    (∃ here, fs.LeadsTo r.templateRoot here) ∨ ∀ n, r.before set fs n = fs := by
  by_cases hroot : ∃ here, fs.LeadsTo r.templateRoot here
  · exact Or.inl hroot
  refine Or.inr fun n => ?_
  induction n with
  | zero => rfl
  | succ n ih =>
    cases hget : set.operations[n]? with
    | none =>
      rw [before_succ_of_none hget, ih]
    | some op =>
      have hop := hset op (List.mem_of_getElem? hget)
      have hsource : Extends r.templateRoot (r.sourceOf op) op.transfer.source.segments :=
        (extendsToName_below r.templateRoot hop.source).toExtends
      rw [before_succ hget, ih]
      exact runOperation_of_nowhere fun place hresolve => hroot (hsource.exists_leadsTo hresolve)

/-- What can be read below the template root is the same all through the run. -/
theorem read_before_iff (hfs : fs.WellFormed) (hapart : r.RootsApart fs)
    (hset : ∀ op ∈ set.operations, op.IsNamed) (hsource : r.naming.source source) (n : Nat)
    (bytes : ByteArray) : (r.before set fs n).read source = .ok bytes ↔ fs.read source = .ok bytes := by
  rcases exists_leadsTo_or_before_eq r fs hset with ⟨here, hroot⟩ | hsame
  swap
  · rw [hsame n]
  have hops : ∀ op ∈ set.operations.take n, op.IsNamed := fun op hop =>
    hset op (List.mem_of_mem_take hop)
  have hkeeps : KeepsFiles (fs.spot r.outputRoot) fs (r.before set fs n) :=
    keepsFiles_operations hops hfs
  exact read_iff_of_keepsFiles hapart hroot hkeeps hsource bytes

theorem readSource_before_iff (hfs : fs.WellFormed) (hapart : r.RootsApart fs)
    (hset : ∀ op ∈ set.operations, op.IsNamed) (hsource : r.naming.source source) (n : Nat)
    (text : String) :
    readSource (r.before set fs n) source = .ok text ↔ HoldsText fs source text := by
  rw [readSource_eq_ok_iff]
  exact exists_congr fun bytes =>
    and_congr_left' (read_before_iff hfs hapart hset hsource n bytes)

/-! ## The last filter -/

/-- What a counted filter leaves behind. -/
theorem Filters.exists_file {n : Nat} {op : Operation} (h : r.Filters set fs n op) :
    ∃ text place, readSource (r.before set fs n) (r.sourceOf op) = .ok text ∧
      (∀ other, other ≠ place → ∀ bytes, (r.before set fs n).lookup other = some (.file bytes) →
        (r.before set fs (n + 1)).lookup other = some (.file bytes)) ∧
      (r.before set fs (n + 1)).lookup place =
        some (.file (r.filteredBytes (r.targetOf op) text)) ∧
      (r.run set fs).2.resolve (r.targetOf op) = .ok (.found place) := by
  have hlength : n + 1 ≤ set.operations.length := (List.getElem?_eq_some_iff.1 h.get).1
  have hgrows := (growsWell_before r set fs hlength).grows
  have hwritten := h.written
  rw [before_succ h.get] at hgrows ⊢
  rw [runOperation_of_filterFile h.kind] at hwritten hgrows ⊢
  rcases filterFile_cases r (r.sourceOf op) (r.targetOf op) (r.before set fs n) with
    ⟨error, made, -, hskip⟩ | ⟨text, place, hread, hopens, hwrote⟩
  · rw [hskip] at hwritten
    exact absurd hwritten Nat.zero_ne_one
  rw [hwrote] at hgrows ⊢
  have hwrites := hopens.writes_put (r.filteredBytes (r.targetOf op) text)
  refine ⟨text, place, hread, fun other hother bytes hfile => ?_, hwrites.lookup_self, ?_⟩
  · dsimp only
    rw [hwrites.lookup_of_ne hother]
    exact (addsDirectories_makeParent _ _).file_iff.2 hfile
  · rw [run_eq_before]
    obtain ⟨old, -, hresolve⟩ := hopens.exists_file_of_writes hwrites hgrows
    exact hresolve

/-- What is at a place after a filter stays there until a counted filter goes there. -/
theorem lookup_before_of_filters {n m : Nat} {op : Operation} (hop : r.Filters set fs n op)
    (hle : n + 1 ≤ m) {place : List String} {bytes : ByteArray}
    (hfile : (r.before set fs (n + 1)).lookup place = some (.file bytes))
    (hlast : ∀ m op', n < m → r.Filters set fs m op' →
      (r.run set fs).2.resolve (r.targetOf op') ≠ .ok (.found place)) :
    (r.before set fs m).lookup place = some (.file bytes) := by
  induction hle with
  | refl => exact hfile
  | @step m hle ih =>
    cases hget : set.operations[m]? with
    | none => rwa [before_succ_of_none hget]
    | some op' =>
      have hkind := kind_of_le hop.get hop.kind (Nat.le_of_succ_le hle) hget
      by_cases hwritten : (Report.ofEvents (r.runOperation op' (r.before set fs m)).1).written = 1
      · have hop' : r.Filters set fs m op' := ⟨hget, hkind, hwritten⟩
        obtain ⟨text, place', -, hothers, -, hresolve⟩ := hop'.exists_file
        have hne : place ≠ place' := by
          rintro rfl
          exact hlast m op' hle hop' hresolve
        exact hothers place hne bytes ih
      · rw [before_succ hget, runOperation_of_filterFile hkind] at *
        rcases filterFile_cases r (r.sourceOf op') (r.targetOf op') (r.before set fs m) with
          ⟨error, made, hadds, hskip⟩ | ⟨text, place', -, -, hwrote⟩
        · rw [hskip]
          exact hadds.file_iff.2 ih
        · rw [hwrote] at hwritten
          exact absurd rfl hwritten

/-- A filter is counted as written exactly if its source is a file with a text, a byte order mark
    apart, and its target can hold a file when its turn comes, as it can if a file is there already.
    In the end the target of a counted filter leads to a file, and unless a later filter that is
    counted leads there as well, the file holds the filtered text. -/
theorem run_filters (r : Runner) (set : OperationSet) (fs : FileSystem) (hfs : fs.WellFormed)
    (hapart : r.RootsApart fs) (hset : ∀ op ∈ set.operations, op.IsNamed) :
    (∀ n op, set.operations[n]? = some op → op.kind = .filterFile →
      (r.Filters set fs n op ↔
        (∃ text, HoldsText fs (r.sourceOf op) text) ∧
          (r.before set fs n).CanHold (r.targetOf op)) ∧
      ((r.before set fs n).isFile (r.targetOf op) = true →
        (r.before set fs n).CanHold (r.targetOf op))) ∧
    ∀ n op, r.Filters set fs n op → ∃ text place, HoldsText fs (r.sourceOf op) text ∧
      (r.run set fs).2.resolve (r.targetOf op) = .ok (.found place) ∧
      ((∀ m op', n < m → r.Filters set fs m op' →
          (r.run set fs).2.resolve (r.targetOf op') ≠ .ok (.found place)) →
        (r.run set fs).2.lookup place = some (.file
          ((if needsMark (r.targetOf op) then Utf8.mark else .empty) ++
            (r.filter text).toUTF8))) := by
  have hsource : ∀ op ∈ set.operations, r.naming.source (r.sourceOf op) := fun op hop =>
    (admits_naming (hset op hop)).source
  constructor
  · intro n op hget hkind
    have hmem := List.mem_of_getElem? hget
    have hmeets : (r.before set fs n).WellFormed :=
      (growsWell_before r set fs (Nat.zero_le n)).wellFormed hfs
    refine ⟨?_, canHold_of_isFile⟩
    have hwritten := written_filterFile_iff (r := r) hmeets (hset op hmem) hkind
    have hread := readSource_before_iff hfs hapart hset (hsource op hmem) n
    simp only [hread] at hwritten
    rw [← hwritten]
    exact ⟨fun h => h.written, fun h => ⟨hget, hkind, h⟩⟩
  · intro n op hop
    have hmem := List.mem_of_getElem? hop.get
    obtain ⟨text, place, hread, -, hfile, hresolve⟩ := hop.exists_file
    have htext := (readSource_before_iff hfs hapart hset (hsource op hmem) n text).1 hread
    refine ⟨text, place, htext, hresolve, fun hlast => ?_⟩
    have hlength : n + 1 ≤ set.operations.length := (List.getElem?_eq_some_iff.1 hop.get).1
    rw [run_eq_before]
    exact lookup_before_of_filters hop hlength hfile hlast

/-! ## Two filters with one target -/

/-- A template with two files. -/
def twoTextFiles : FileSystem :=
  let fs := ((FileSystem.mk [] []).makeDirectories "tpl").2
  let fs := (fs.write "tpl/a.txt" "a".toUTF8).2
  (fs.write "tpl/b.txt" "b".toUTF8).2

/-- Adds an exclamation mark to the texts that it filters. -/
def exclaimer : Runner :=
  ⟨(· ++ "!"), "tpl", "out", false⟩

/-- A copy and two filters to one target. -/
def rivalFilters : OperationSet :=
  ⟨[], [⟨⟨["a.txt"]⟩, ⟨["c.h"]⟩⟩], [⟨⟨["a.txt"]⟩, ⟨["c.h"]⟩⟩, ⟨⟨["b.txt"]⟩, ⟨["c.h"]⟩⟩]⟩

theorem twoTextFiles_wellFormed : twoTextFiles.WellFormed := by
  unfold twoTextFiles
  have htemplate := wellFormed_makeDirectories wellFormed_empty "tpl"
  exact wellFormed_write (wellFormed_write htemplate _ _) _ _

/-- The second of the filters has the last word. -/
theorem run_filters_sample : twoTextFiles.WellFormed ∧ exclaimer.RootsApart twoTextFiles ∧
    (∀ op ∈ rivalFilters.operations, op.IsNamed) ∧
    exclaimer.Filters rivalFilters twoTextFiles 2 ⟨.filterFile, ⟨⟨["b.txt"]⟩, ⟨["c.h"]⟩⟩⟩ ∧
    (exclaimer.run rivalFilters twoTextFiles).2.lookup ["out", "c.h"] =
      some (.file (Utf8.mark ++ "b!".toUTF8)) := by
  have hapart : exclaimer.RootsApart twoTextFiles := by
    unfold RootsApart
    decide +kernel
  have hset : ∀ op ∈ rivalFilters.operations, op.IsNamed := by decide
  have hfilters : exclaimer.Filters rivalFilters twoTextFiles 2
      ⟨.filterFile, ⟨⟨["b.txt"]⟩, ⟨["c.h"]⟩⟩⟩ := ⟨rfl, rfl, by decide +kernel⟩
  refine ⟨twoTextFiles_wellFormed, hapart, hset, hfilters, ?_⟩
  obtain ⟨text, place, ⟨bytes, hread, htext⟩, hresolve, hlast⟩ :=
    (run_filters exclaimer rivalFilters twoTextFiles twoTextFiles_wellFormed hapart hset).2 2 _
      hfilters
  -- the source holds the text b, and nothing runs after its filter
  have hread' : twoTextFiles.read (exclaimer.sourceOf ⟨.filterFile, ⟨⟨["b.txt"]⟩, ⟨["c.h"]⟩⟩⟩) =
      .ok "b".toUTF8 := by rfl
  obtain rfl := Except.ok.inj (hread.symm.trans hread')
  have hdrop : Utf8.dropMark "b".toUTF8 = "b".toUTF8 := by rfl
  obtain rfl : "b" = text := String.toByteArray_inj.1 (hdrop.symm.trans htext)
  have hresolve' : (exclaimer.run rivalFilters twoTextFiles).2.resolve
      (exclaimer.targetOf ⟨.filterFile, ⟨⟨["b.txt"]⟩, ⟨["c.h"]⟩⟩⟩) =
        .ok (.found ["out", "c.h"]) := by
    decide +kernel
  obtain rfl := Target.found.inj (Except.ok.inj (hresolve.symm.trans hresolve'))
  have hmark : needsMark (exclaimer.targetOf ⟨.filterFile, ⟨⟨["b.txt"]⟩, ⟨["c.h"]⟩⟩⟩) = true := by
    decide +kernel
  rw [hlast fun m op' hm hop' => ?_, hmark]
  · rfl
  · have hlength : m < 3 := (List.getElem?_eq_some_iff.1 hop'.get).1
    omega

end Runner

end Scaffold
