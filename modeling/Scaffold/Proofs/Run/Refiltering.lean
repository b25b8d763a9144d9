import Scaffold.Proofs.FileSystem.Spots
import Scaffold.Proofs.Run.Operations

set_option autoImplicit false

/-! # Running with another filter

A run looks at its filter only when it writes a filtered file, and what it filters are texts of files
below the template root. So runs with two filters that make the same of all these texts do the same,
step by step (`sameBelow_run`): the roots lie apart, and what the steps before have written is never
filtered. -/

namespace Scaffold

open FileSystem

/-! ## Steps that do the same -/

section

variable {base : FileSystem} {top : List String}

/-- From any growth of `base` below `top`, both steps do the same and only grow the file system
    below `top`. -/
def SameBelow (base : FileSystem) (top : List String) (step step' : Step) : Prop :=
  ∀ s, GrowsBelow top base s → step' s = step s ∧ GrowsBelow top s (step s).2

theorem sameBelow_tell (events : List Event) :
    SameBelow base top (fun fs => (events, fs)) fun fs => (events, fs) := by
  intro s _
  exact ⟨rfl, .refl top s⟩

theorem SameBelow.cons {step step' : Step} {steps steps' : List Step}
    (h : SameBelow base top step step')
    (h' : SameBelow base top (Step.seq steps) (Step.seq steps')) :
    SameBelow base top (Step.seq (step :: steps)) (Step.seq (step' :: steps')) := by
  intro s hs
  obtain ⟨heq, hgrows⟩ := h s hs
  obtain ⟨heq', hgrows'⟩ := h' (step s).2 (hs.trans hgrows)
  constructor
  · simp only [Step.seq, heq, heq']
  · exact hgrows.trans hgrows'

/-- Two sequences that come from one list do the same if their steps do. -/
theorem SameBelow.map {α : Type} {list : List α} {step step' : α → Step}
    (h : ∀ x ∈ list, SameBelow base top (step x) (step' x)) :
    SameBelow base top (Step.seq (list.map step)) (Step.seq (list.map step')) := by
  induction list with
  | nil => exact sameBelow_tell []
  | cons x list ih =>
    refine (h x List.mem_cons_self).cons (ih ?_)
    intro y hy
    exact h y (List.mem_cons_of_mem _ hy)

end

namespace Runner

variable {r : Runner} {filter : TextFilter} {base : FileSystem} {origin source target : String}
variable {here top names : List String}

/-- The runner with another filter. -/
def withFilter (r : Runner) (filter : TextFilter) : Runner :=
  { r with filter := filter }

/-- Both filters make the same of the text of every file below a place. -/
def SameTexts (base : FileSystem) (place : List String) (filter filter' : TextFilter) : Prop :=
  ∀ names bytes text, names ≠ [] → base.lookup (place ++ names) = some (.file bytes) →
    Utf8.decode (Utf8.dropMark bytes) = .ok text → filter' text = filter text

/-! ## Copying -/

@[simp]
theorem copyBytes_withFilter (r : Runner) (filter : TextFilter) (source target : String) :
    (r.withFilter filter).copyBytes source target = r.copyBytes source target := rfl

@[simp]
theorem copyFile_withFilter (r : Runner) (filter : TextFilter) (source target : String) :
    (r.withFilter filter).copyFile source target = r.copyFile source target := rfl

@[simp]
theorem copyDirectory_withFilter (r : Runner) (filter : TextFilter) (room : Nat)
    (source target : String) :
    (r.withFilter filter).copyDirectory room source target =
      r.copyDirectory room source target := by
  induction room generalizing source target with
  | zero =>
    funext fs
    unfold copyDirectory
    rfl
  | succ room ih =>
    funext fs
    unfold copyDirectory
    simp only [ih, copyBytes_withFilter]

@[simp]
theorem copySubtree_withFilter (r : Runner) (filter : TextFilter) (source target : String) :
    (r.withFilter filter).copySubtree source target = r.copySubtree source target := by
  funext fs
  simp only [copySubtree, copyDirectory_withFilter]

/-! ## Filtering a file -/

/-- The text that is filtered is that of a file below the template root. -/
theorem exists_file_of_readSource (h : r.Stage base origin here top)
    (hsource : Extends r.templateRoot source names) {s : FileSystem} (hs : GrowsBelow top base s)
    {text : String} (htext : readSource s source = .ok text) :
    ∃ bytes, base.lookup (base.spot r.templateRoot ++ names) = some (.file bytes) ∧
      Utf8.decode (Utf8.dropMark bytes) = .ok text := by
  obtain ⟨before, horigin⟩ := h.source
  unfold readSource at htext
  rw [read_of_lieApart (horigin.trans hsource) h.template h.apart hs] at htext
  cases hread : base.read source with
  | error cause => simp [hread] at htext
  | ok bytes =>
    obtain ⟨place, hplace, hfile⟩ := read_eq_ok_iff.1 hread
    have hspot : place = base.spot source := eq_spot_of_resolve hplace
    rw [hspot, hsource.spot_eq] at hfile
    refine ⟨bytes, hfile, ?_⟩
    cases hdecode : Utf8.decode (Utf8.dropMark bytes) with
    | error fault => simp [hread, hdecode] at htext
    | ok other =>
      simp only [hread, hdecode, Except.ok.injEq] at htext
      rw [htext]

theorem filterFile_withFilter (h : r.Stage base origin here top)
    (hsource : ExtendsToName r.templateRoot source names)
    (htexts : SameTexts base (base.spot r.templateRoot) r.filter filter) {s : FileSystem}
    (hs : GrowsBelow top base s) :
    (r.withFilter filter).filterFile source target s = r.filterFile source target s := by
  cases hfile : s.isFile source with
  | false => rw [filterFile_of_not_isFile hfile, filterFile_of_not_isFile hfile]
  | true =>
    cases htext : readSource s source with
    | error cause => rw [filterFile_of_error hfile htext, filterFile_of_error hfile htext]
    | ok text =>
      obtain ⟨bytes, hbytes, hdecode⟩ :=
        exists_file_of_readSource h hsource.toExtends hs htext
      have hsame : filter text = r.filter text :=
        htexts names bytes text hsource.ne_nil hbytes hdecode
      have hfiltered :
          (r.withFilter filter).filteredBytes target text = r.filteredBytes target text := by
        simp only [filteredBytes, withFilter, hsame]
      rw [filterFile_of_text hfile htext, filterFile_of_text hfile htext, hfiltered]

/-! ## Runs -/

theorem sameBelow_runOperation (h : r.Stage base origin here top)
    (htexts : SameTexts base (base.spot r.templateRoot) r.filter filter) {op : Operation}
    (hop : op.IsNamed) :
    SameBelow base top (r.runOperation op) ((r.withFilter filter).runOperation op) := by
  intro s hs
  have hwork : (r.withFilter filter).work op s = r.work op s := by
    unfold work
    cases op.kind with
    | copySubtree => exact congrFun (copySubtree_withFilter r filter _ _) s
    | copyFile => rfl
    | filterFile =>
      have hsource := extendsToName_below r.templateRoot hop.source
      exact filterFile_withFilter h hsource htexts hs
  constructor
  · simp only [runOperation_eq, Step.seq, hwork]
  · exact (settles_runOperation h hop s hs).1

/-- Runs with filters that make the same of all texts below the template root do the same. -/
theorem sameBelow_run (h : r.Stage base origin here top)
    (htexts : SameTexts base (base.spot r.templateRoot) r.filter filter) {set : OperationSet}
    (hset : ∀ op ∈ set.operations, op.IsNamed) :
    SameBelow base top (r.run set) ((r.withFilter filter).run set) := by
  refine .map ?_
  intro op hop
  exact sameBelow_runOperation h htexts (hset op hop)

end Runner

end Scaffold
