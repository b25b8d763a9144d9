import Mathlib.Data.Set.Finite.Lemmas
import Scaffold.Proofs.Run.Touring

set_option autoImplicit false

/-! # Copies that come to their own output

A directory may be copied to where it is copied from. The copying goes wrong if it lists a directory
after it has added something to it: then it copies its own output again. It does not if nothing is
added to the directories that are still to be listed (`SparesSource`), and this can be told from
one name: where the target goes on from the source, or the source from the target, the source must
not hold the name by which it does (`sparesSource_of_free`). -/

namespace Scaffold

open FileSystem

namespace Runner

variable {r : Runner} {fs t : FileSystem} {source target : String}

/-- The copies of what comes earlier add nothing to a directory that is listed later. -/
def SparesSource (fs : FileSystem) (source target : String) : Prop :=
  ∀ other names name, fs.Visits source other → fs.Visits source names → other < names →
    fs.lookup (fs.spot source ++ names) = some .directory →
    fs.Passes (along target other) (fs.spot source ++ (names ++ [name])) →
    fs.lookup (fs.spot source ++ (names ++ [name])) ≠ none

/-! ## Tours without own output -/

/-- The first stop that was not there in the beginning stands in a directory that was, and it was
    made for a stop that was: nothing else comes before it. -/
theorem isOld_of_sparesSource {tour : List Stop} (hsource : fs.isDirectory source = true)
    (htour : ∀ stop ∈ tour, Explained fs source target tour stop)
    (hspares : SparesSource fs source target) : ∀ stop ∈ tour, IsOld fs source stop := by
  by_contra hall
  rw [not_forall] at hall
  obtain ⟨bad, hbad⟩ := hall
  have hfinite : {stop | stop ∈ tour ∧ ¬ IsOld fs source stop}.Finite :=
    tour.finite_toSet.subset fun stop hstop => hstop.1
  obtain ⟨⟨names, isDirectory⟩, ⟨hstop, hnew⟩, hfirst⟩ :=
    Set.exists_min_image _ Prod.fst hfinite ⟨bad, Classical.not_imp.1 hbad⟩
  have hold : ∀ other ∈ tour, other.1 < names → IsOld fs source other := by
    intro other hother hlt
    by_contra hnew'
    exact absurd (hfirst other ⟨hother, hnew'⟩) (not_le.2 hlt)
  have hown := (htour _ hstop).resolve_left hnew
  have hfree : fs.lookup (fs.spot source ++ names) = none := hown.free
  rcases List.eq_nil_or_concat names with rfl | ⟨directory, name, rfl⟩
  · rw [List.append_nil, (isRoot_of_isDirectory hsource).directory] at hfree
    simp at hfree
  · rw [List.concat_eq_append] at *
    have hlisted := hown.listed
    obtain ⟨other, hother, hlt, hpasses⟩ := hown.made
    dsimp only at hlisted hlt hpasses
    rw [List.dropLast_concat] at hlisted hlt
    have hbefore := lt_concat directory name
    have hdirectory := hold _ hlisted hbefore
    exact hspares other.1 directory name (hold other hother (hlt.trans hbefore)).visits
      hdirectory.visits hlt (beq_iff_eq.1 hdirectory.kind.symm) hpasses hfree

/-! ## When the source is spared -/

theorem Visits.isName (hfs : fs.WellFormed) {names : List String} (h : fs.Visits source names) :
    ∀ name ∈ names, IsName name := fun name hname =>
  hfs.isName _ h.there name (List.mem_append_right _ hname)

/-- A name that is missing in the source is not visited, nor is anything behind it. -/
theorem not_visits_cons {name : String} {rest : List String}
    (h : fs.lookup (fs.spot source ++ [name]) = none) : ¬ fs.Visits source (name :: rest) :=
  fun hvisits => lookup_ne_none_above (prefix_of_cons _ name rest) hvisits.there h

/-- Of two places above a third one, one goes on from the other, unless they are the same. -/
theorem goes_on_of_prefix {first second place : List String} (h : first <+: place)
    (h' : second <+: place) :
    second = first ∨ (∃ name rest, second = first ++ name :: rest) ∨
      ∃ name rest, first = second ++ name :: rest := by
  rcases List.prefix_or_prefix_of_prefix h h' with ⟨_ | ⟨name, rest⟩, rfl⟩ | ⟨_ | ⟨name, rest⟩, rfl⟩
  · exact Or.inl (List.append_nil first)
  · exact Or.inr (Or.inl ⟨name, rest, rfl⟩)
  · exact Or.inl (List.append_nil second).symm
  · exact Or.inr (Or.inr ⟨name, rest, rfl⟩)

/-- The source is spared unless it holds the name by which the target goes on from it, or it goes on
    from the target. -/
theorem sparesSource_of_free (hfs : fs.WellFormed) (htarget : ".." ∉ pieces target)
    (hfree : ∀ name rest, fs.spot target = fs.spot source ++ name :: rest ∨
      fs.spot source = fs.spot target ++ name :: rest →
      fs.lookup (fs.spot source ++ [name]) = none) :
    SparesSource fs source target := by
  intro other names name hother hnames hlt _ hpasses
  have hextends := extends_along (Visits.isName hfs hother) target
  have hpieces : ".." ∉ pieces (along target other) := by
    rw [hextends.pieces_eq, List.mem_append, not_or]
    exact ⟨htarget, fun hmem => (Visits.isName hfs hother _ hmem).isStep.2 rfl⟩
  have hon := hpasses.prefix_spot hpieces
  rw [hextends.spot_eq] at hon
  rcases goes_on_of_prefix ((List.prefix_append _ _).trans hon)
    (List.prefix_append (fs.spot target) other) with hsame | ⟨first, more, heq⟩ | ⟨first, more, heq⟩
  · -- a copy onto the source itself only passes what is there
    rw [hsame] at hon
    exact lookup_ne_none_above hon hother.there
  · -- the target is reached by a name that is not visited, so `names` begins with another one
    have hmissing := hfree first more (Or.inl heq)
    rw [heq, List.append_assoc, List.prefix_append_right_inj] at hon
    cases names with
    | nil => exact absurd hlt (List.not_lt_nil other)
    | cons second rest =>
      rw [List.cons_append, List.cons_append, List.cons_prefix_cons] at hon
      rw [hon.1] at hnames
      exact absurd hnames (not_visits_cons hmissing)
  · -- only the copy of what stands under the missing name could get back to the source
    have hmissing := hfree first more (Or.inr heq)
    rw [heq, List.append_assoc, List.prefix_append_right_inj, List.cons_append] at hon
    obtain ⟨rest, rfl⟩ := hon
    exact absurd hother (not_visits_cons hmissing)

/-! ## Counting -/

theorem InOrder.nodup {names : List String} {stops : List Stop} (h : InOrder names stops) :
    (stops.map Prod.fst).Nodup :=
  (List.pairwise_map.2 h.pairwise).imp ne_of_lt

theorem ncard_of_nodup {α : Type} [DecidableEq α] {list : List α} (h : list.Nodup) {s : Set α}
    (hmem : ∀ x, x ∈ list ↔ x ∈ s) : s.ncard = list.length := by
  have hset : s = list.toFinset := by
    ext x
    simp [hmem]
  rw [hset, Set.ncard_coe_finset, List.toFinset_card_of_nodup h]

variable {stops : List Stop}

theorem mem_map_fst_iff (hold : ∀ stop ∈ stops, IsOld fs source stop)
    (hall : ∀ names, fs.Visits source names → ∃ isDirectory, (names, isDirectory) ∈ stops)
    (names : List String) : names ∈ stops.map Prod.fst ↔ fs.Visits source names := by
  rw [List.mem_map]
  constructor
  · rintro ⟨stop, hstop, rfl⟩
    exact (hold stop hstop).visits
  · intro hvisits
    obtain ⟨isDirectory, hmem⟩ := hall names hvisits
    exact ⟨_, hmem, rfl⟩

theorem length_eq_census (horder : InOrder [] stops) (hold : ∀ stop ∈ stops, IsOld fs source stop)
    (hall : ∀ names, fs.Visits source names → ∃ isDirectory, (names, isDirectory) ∈ stops) :
    stops.length = fs.census source fun _ => true := by
  have hmem : ∀ names, names ∈ stops.map Prod.fst ↔
      names ∈ {names | fs.Visits source names ∧ true = true} := by
    simpa using mem_map_fst_iff hold hall
  unfold census
  rw [ncard_of_nodup horder.nodup hmem, List.length_map]

/-- What is there and is taken for no directory is a file. -/
theorem IsOld.isFile_iff {stop : Stop} (h : IsOld fs source stop) :
    stop.2 = false ↔ fs.kind? (fs.spot source ++ stop.1) = some .file := by
  rw [h.kind, kind?]
  cases hlookup : fs.lookup (fs.spot source ++ stop.1) with
  | none => exact absurd hlookup h.visits.there
  | some entry => cases entry <;> simp [Entry.kind]

theorem fileCount_eq_filesBelow (horder : InOrder [] stops)
    (hold : ∀ stop ∈ stops, IsOld fs source stop)
    (hall : ∀ names, fs.Visits source names → ∃ isDirectory, (names, isDirectory) ∈ stops) :
    fileCount stops = fs.filesBelow source := by
  have hnodup : ((stops.filter fun stop => !stop.2).map Prod.fst).Nodup :=
    horder.nodup.sublist (List.filter_sublist.map Prod.fst)
  have hmem : ∀ names, names ∈ (stops.filter fun stop => !stop.2).map Prod.fst ↔
      names ∈ {names | fs.Visits source names ∧
        (fs.kind? (fs.spot source ++ names) == some .file) = true} := by
    intro names
    simp only [List.mem_map, List.mem_filter, Set.mem_ofPred_eq, beq_iff_eq, Bool.not_eq_true']
    constructor
    · rintro ⟨stop, ⟨hstop, hfile⟩, rfl⟩
      exact ⟨(hold stop hstop).visits, (hold stop hstop).isFile_iff.1 hfile⟩
    · rintro ⟨hvisits, hfile⟩
      obtain ⟨isDirectory, hstop⟩ := hall names hvisits
      exact ⟨_, ⟨hstop, (hold _ hstop).isFile_iff.2 hfile⟩, rfl⟩
  unfold fileCount filesBelow census
  rw [ncard_of_nodup hnodup hmem, List.length_map, List.countP_eq_length_filter]

/-! ## Operations -/

/-- The stops of an operation that copies a directory. -/
def operationTour (r : Runner) (op : Operation) (fs : FileSystem) : List Stop :=
  r.tour (r.sourceOf op) (Path.join (r.targetOf op) "") pathLimit [] fs

theorem stops_operationItems {op : Operation} (hkind : op.kind = .copySubtree)
    (hsource : fs.isDirectory (r.sourceOf op) = true) :
    (r.operationItems op fs).filterMap Item.stop? =
      (r.operationTour op fs).map (Stop.onto (Path.join (r.targetOf op) "")) := by
  unfold operationItems
  rw [hkind]
  dsimp only
  rw [if_pos hsource]
  exact filterMap_directoryItems r _ _ pathLimit [] fs

theorem inOrder_operationTour (r : Runner) (op : Operation) (fs : FileSystem) :
    InOrder [] (r.operationTour op fs) :=
  inOrder_tour r _ _ pathLimit [] fs

/-- The path limit leaves room for all that can be reached. -/
theorem exists_mem_operationTour (hfs : fs.WellFormed) (op : Operation) {names : List String}
    (hvisits : fs.Visits (r.sourceOf op) names) :
    ∃ isDirectory, (names, isDirectory) ∈ r.operationTour op fs :=
  exists_mem_tour r _ pathLimit [] (Visits.isName hfs hvisits) (.refl [] fs) hvisits
    (Nat.le_add_right _ _)

theorem isOld_start (hsource : fs.isDirectory source = true) : IsOld fs source ([], true) := by
  have hroot := isRoot_of_isDirectory hsource
  refine ⟨visits_nil (by simp [hroot.directory]), ?_⟩
  rw [List.append_nil, hroot.directory]
  rfl

theorem explained_operationTour (hfs : fs.WellFormed) {op : Operation}
    (hsource : fs.isDirectory (r.sourceOf op) = true) : ∀ stop ∈ r.operationTour op fs,
      Explained fs (r.sourceOf op) (Path.join (r.targetOf op) "") (r.operationTour op fs) stop :=
  (tours_tour r hfs hsource pathLimit (fun _ h => absurd h List.not_mem_nil)
    (reached_nil fs _) (fun _ h => absurd h List.not_mem_nil)
    (Or.inl (isOld_start hsource))).explained

/-- What the copying of a directory comes to, each time once and in the order of dictionaries: all
    that a walk came to in the beginning, and of its own output what was made by then in directories
    that are listed later. If it spares its source it comes to nothing else, and copies no more
    files than there were; and it does if the source does not hold the name by which the target goes
    on from it, or it goes on from the target. -/
theorem runOperation_copySubtree_tour (r : Runner) (fs : FileSystem) (hfs : fs.WellFormed)
    (op : Operation) (hkind : op.kind = .copySubtree)
    (hsource : fs.isDirectory (r.sourceOf op) = true) :
    (r.operationItems op fs).filterMap Item.stop? =
      (r.operationTour op fs).map (Stop.onto (Path.join (r.targetOf op) "")) ∧
    (r.operationTour op fs).Pairwise (fun earlier later => earlier.1 < later.1) ∧
    (∀ names, fs.Visits (r.sourceOf op) names →
      ∃ isDirectory, (names, isDirectory) ∈ r.operationTour op fs) ∧
    (∀ stop ∈ r.operationTour op fs, IsOld fs (r.sourceOf op) stop ∨
      IsOwn fs (r.sourceOf op) (Path.join (r.targetOf op) "") (r.operationTour op fs) stop) ∧
    (SparesSource fs (r.sourceOf op) (Path.join (r.targetOf op) "") →
      (∀ names, names ∈ (r.operationTour op fs).map Prod.fst ↔ fs.Visits (r.sourceOf op) names) ∧
      (r.operationTour op fs).length = fs.census (r.sourceOf op) (fun _ => true) ∧
      (Report.ofEvents (r.runOperation op fs).1).written ≤ fs.filesBelow (r.sourceOf op)) ∧
    (".." ∉ pieces (r.targetOf op) →
      (∀ name rest, fs.spot (r.targetOf op) = fs.spot (r.sourceOf op) ++ name :: rest ∨
          fs.spot (r.sourceOf op) = fs.spot (r.targetOf op) ++ name :: rest →
        fs.lookup (fs.spot (r.sourceOf op) ++ [name]) = none) →
      SparesSource fs (r.sourceOf op) (Path.join (r.targetOf op) "")) := by
  have horder := inOrder_operationTour r op fs
  have hall : ∀ names, fs.Visits (r.sourceOf op) names →
      ∃ isDirectory, (names, isDirectory) ∈ r.operationTour op fs := fun names hvisits =>
    exists_mem_operationTour hfs op hvisits
  have hexplained := explained_operationTour hfs hsource
  refine ⟨stops_operationItems hkind hsource, horder.pairwise, hall, hexplained,
    fun hspares => ?_, fun hup hfree => ?_⟩
  · have hold := isOld_of_sparesSource hsource hexplained hspares
    refine ⟨mem_map_fst_iff hold hall, length_eq_census horder hold hall, ?_⟩
    rw [← fileCount_eq_filesBelow horder hold hall, runOperation_of_copySubtree hkind hsource]
    exact written_copyDirectory_le r (r.sourceOf op) _ pathLimit [] fs
  · have htarget := (Extends.refl (r.targetOf op)).join_empty
    refine sparesSource_of_free hfs ?_ fun name rest h => hfree name rest ?_
    · rw [htarget.pieces_eq, List.append_nil]
      exact hup
    · rwa [htarget.spot_eq, List.append_nil] at h

/-! ## A directory that is copied into itself -/

/-- A template with one file in a directory. -/
def singleFileTree : FileSystem :=
  let fs := ((FileSystem.mk [] []).makeDirectories "tpl/a").2
  (fs.write "tpl/a/a.txt" "text".toUTF8).2

/-- The same template with an empty directory where the copy is to be made. -/
def innerTargetTree : FileSystem :=
  (singleFileTree.makeDirectories "tpl/a/b").2

def inPlaceRunner : Runner :=
  ⟨id, "tpl", "tpl", false⟩

/-- Copies a directory into itself. -/
def selfCopy : Operation :=
  ⟨.copySubtree, ⟨⟨["a"]⟩, ⟨["a", "b"]⟩⟩⟩

theorem singleFileTree_wellFormed : singleFileTree.WellFormed :=
  wellFormed_write (wellFormed_makeDirectories wellFormed_empty "tpl/a") _ _

theorem innerTargetTree_wellFormed : innerTargetTree.WellFormed :=
  wellFormed_makeDirectories singleFileTree_wellFormed "tpl/a/b"

/-- A new directory in the source is not listed any more. -/
theorem runOperation_copySubtree_tour_new :
    singleFileTree.WellFormed ∧ selfCopy.kind = .copySubtree ∧
    singleFileTree.isDirectory (inPlaceRunner.sourceOf selfCopy) = true ∧
    (∀ names, names ∈ (inPlaceRunner.operationTour selfCopy singleFileTree).map Prod.fst ↔
      singleFileTree.Visits (inPlaceRunner.sourceOf selfCopy) names) ∧
    (Report.ofEvents (inPlaceRunner.runOperation selfCopy singleFileTree).1).written ≤
      singleFileTree.filesBelow (inPlaceRunner.sourceOf selfCopy) := by
  have hsource : singleFileTree.isDirectory (inPlaceRunner.sourceOf selfCopy) = true := by
    decide +kernel
  obtain ⟨-, -, -, -, hspared, hspares⟩ := runOperation_copySubtree_tour inPlaceRunner
    singleFileTree singleFileTree_wellFormed selfCopy rfl hsource
  have htarget : singleFileTree.spot (inPlaceRunner.targetOf selfCopy) = ["tpl", "a", "b"] := by
    decide +kernel
  have hspot : singleFileTree.spot (inPlaceRunner.sourceOf selfCopy) = ["tpl", "a"] := by
    decide +kernel
  obtain ⟨htour, -, hwritten⟩ := hspared <| hspares (by decide +kernel) fun name rest h => by
    rw [htarget, hspot] at h
    rcases h with h | h
    · obtain ⟨rfl, -⟩ : "b" = name ∧ [] = rest := by simpa using h
      rw [hspot]
      decide +kernel
    · simp at h
  exact ⟨singleFileTree_wellFormed, rfl, hsource, htour, hwritten⟩

theorem filesBelow_innerTargetTree :
    innerTargetTree.filesBelow (inPlaceRunner.sourceOf selfCopy) = 1 := by
  have hlist : innerTargetTree.list (inPlaceRunner.sourceOf selfCopy) =
      .ok [("a.txt", false), ("b", true)] := by
    rfl
  have hempty : innerTargetTree.list (Path.join (inPlaceRunner.sourceOf selfCopy) "b") =
      .ok [] := by
    rfl
  have hfile := kind?_of_mem_entries innerTargetTree_wellFormed hlist List.mem_cons_self
  rw [filesBelow_of_list innerTargetTree_wellFormed hlist, List.map_cons, List.map_singleton,
    filesBelow_of_leaf hfile (isDirectory_of_kind?_file hfile),
    filesBelow_of_list innerTargetTree_wellFormed hempty]
  rfl

/-- A directory that was there is listed when the copy is in it already. -/
theorem exists_copySubtree_own_output :
    ∃ (r : Runner) (fs : FileSystem) (op : Operation), fs.WellFormed ∧ op.kind = .copySubtree ∧
      fs.isDirectory (r.sourceOf op) = true ∧
      (∃ stop ∈ r.operationTour op fs, fs.lookup (fs.spot (r.sourceOf op) ++ stop.1) = none) ∧
      fs.filesBelow (r.sourceOf op) < (Report.ofEvents (r.runOperation op fs).1).written := by
  refine ⟨inPlaceRunner, innerTargetTree, selfCopy, innerTargetTree_wellFormed, rfl,
    by decide +kernel, by decide +kernel, ?_⟩
  rw [filesBelow_innerTargetTree]
  decide +kernel

end Runner

end Scaffold
