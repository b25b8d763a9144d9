import Mathlib.Data.List.Nodup
import Scaffold.Proofs.CommandLine.Ranked

set_option autoImplicit false

/-! # The one ranking of some texts

Ranked texts are some members, longer ones first, and among those of one length the ones that joined
earlier (`IsRankingOf`). Members have only one ranking, and a stable sort finds it
(`IsRankingOf.eq_mergeSort`). So it makes no difference that texts are put in their places one by one
as they are added, and taken out again: what is left is what sorting the remaining members gives. -/

namespace Scaffold.Ranked

variable {texts texts' members : List String} {s t : String} {size : Nat}

/-- The members after `t` has joined: it comes last, unless it is one of them already. -/
def join (members : List String) (t : String) : List String :=
  if t ∈ members then members else members ++ [t]

/-- The texts of one size, in their order. -/
def ofSize (size : Nat) (texts : List String) : List String :=
  texts.filter fun t => t.utf8ByteSize = size

/-- The texts are the members, each once, ranked, and those of one size in the order of the
    members. -/
structure IsRankingOf (texts members : List String) : Prop where
  nodup : texts.Nodup
  isRanked : IsRanked texts
  order : ∀ size, ofSize size texts = ofSize size members

/-! ## Texts of one size -/

theorem mem_ofSize : t ∈ ofSize size texts ↔ t ∈ texts ∧ t.utf8ByteSize = size := by
  simp [ofSize]

theorem ofSize_append (before after : List String) :
    ofSize size (before ++ after) = ofSize size before ++ ofSize size after :=
  List.filter_append ..

theorem ofSize_cons (t : String) (texts : List String) :
    ofSize size (t :: texts) =
      if t.utf8ByteSize = size then t :: ofSize size texts else ofSize size texts := by
  simp [ofSize, List.filter_cons]

theorem ofSize_eq_nil (h : ∀ t ∈ texts, t.utf8ByteSize ≠ size) : ofSize size texts = [] := by
  rw [ofSize, List.filter_eq_nil_iff]
  simpa using h

theorem ofSize_filter (p : String → Bool) (texts : List String) :
    ofSize size (texts.filter p) = (ofSize size texts).filter p := by
  unfold ofSize
  rw [List.filter_filter, List.filter_filter]
  exact List.filter_congr fun t _ => Bool.and_comm _ _

theorem mem_iff_of_ofSize_eq (hsizes : ∀ size, ofSize size texts = ofSize size texts') :
    t ∈ texts ↔ t ∈ texts' := by
  have hiff : t ∈ ofSize t.utf8ByteSize texts ↔ t ∈ ofSize t.utf8ByteSize texts' := by
    rw [hsizes]
  simpa only [mem_ofSize, and_true] using hiff

/-- Ranked texts are given by their texts of each size. -/
theorem eq_of_ofSize_eq (h : IsRanked texts) (h' : IsRanked texts')
    (hsizes : ∀ size, ofSize size texts = ofSize size texts') : texts = texts' := by
  have hmem : ∀ t, t ∈ texts ↔ t ∈ texts' := fun t => mem_iff_of_ofSize_eq hsizes
  induction texts generalizing texts' with
  | nil => exact (List.eq_nil_iff_forall_not_mem.2 fun t ht => by simpa using (hmem t).2 ht).symm
  | cons first rest ih =>
    cases texts' with
    | nil => simpa using (hmem first).1 List.mem_cons_self
    | cons first' rest' =>
      obtain ⟨hshorter, hranked⟩ := List.pairwise_cons.1 h
      obtain ⟨hshorter', hranked'⟩ := List.pairwise_cons.1 h'
      -- each of the two first texts is as long as the other one
      have hsize : first.utf8ByteSize = first'.utf8ByteSize := by
        refine le_antisymm ?_ ?_
        · rcases List.mem_cons.1 ((hmem first).1 List.mem_cons_self) with heq | hmem'
          · rw [heq]
          · exact hshorter' first hmem'
        · rcases List.mem_cons.1 ((hmem first').2 List.mem_cons_self) with heq | hmem'
          · rw [heq]
          · exact hshorter first' hmem'
      have hfirst := hsizes first.utf8ByteSize
      rw [ofSize_cons, ofSize_cons, if_pos rfl, if_pos hsize.symm, List.cons.injEq] at hfirst
      obtain ⟨rfl, -⟩ := hfirst
      have hrest : ∀ size, ofSize size rest = ofSize size rest' := by
        intro size
        have hboth := hsizes size
        rw [ofSize_cons, ofSize_cons] at hboth
        split_ifs at hboth
        · exact (List.cons.inj hboth).2
        · exact hboth
      exact congrArg (List.cons first)
        (ih hranked hranked' hrest fun t => mem_iff_of_ofSize_eq hrest)

/-! ## Rankings -/

theorem IsRankingOf.mem_iff (h : IsRankingOf texts members) : t ∈ texts ↔ t ∈ members :=
  mem_iff_of_ofSize_eq h.order

theorem isRankingOf_nil : IsRankingOf [] [] :=
  ⟨List.nodup_nil, List.Pairwise.nil, fun _ => rfl⟩

theorem place_perm (t : String) (texts : List String) : (place t texts).Perm (t :: texts) := by
  induction texts with
  | nil => exact List.Perm.refl _
  | cons other rest ih =>
    unfold place
    split
    · exact List.Perm.refl _
    · exact (ih.cons other).trans (List.Perm.swap t other rest)

/-- A text is placed behind the others of its size. -/
theorem ofSize_place (h : IsRanked texts) :
    ofSize size (place t texts) = ofSize size (texts ++ [t]) := by
  induction texts with
  | nil => rfl
  | cons other rest ih =>
    obtain ⟨hshorter, hranked⟩ := List.pairwise_cons.1 h
    unfold place
    split
    · next hlt =>
      -- nothing of its size stands behind it
      have hnone : ofSize t.utf8ByteSize (other :: rest) = [] := by
        refine ofSize_eq_nil fun u hu => ?_
        rcases List.mem_cons.1 hu with rfl | hu
        · omega
        · have hle := hshorter u hu
          omega
      rw [ofSize_cons, ofSize_append, ofSize_cons t []]
      by_cases hsize : t.utf8ByteSize = size
      · subst hsize
        rw [if_pos rfl, if_pos rfl, hnone]
        rfl
      · rw [if_neg hsize, if_neg hsize]
        exact (List.append_nil _).symm
    · rw [ofSize_cons, ih hranked, List.cons_append, ofSize_cons]

theorem IsRankingOf.add (h : IsRankingOf texts members) (t : String) :
    IsRankingOf (Ranked.add texts t) (join members t) := by
  unfold Ranked.add join
  by_cases hmem : t ∈ texts
  · rw [if_pos (List.contains_iff_mem.2 hmem), if_pos (h.mem_iff.1 hmem)]
    exact h
  · rw [if_neg (mt List.contains_iff_mem.1 hmem), if_neg (mt h.mem_iff.2 hmem)]
    refine ⟨?_, isRanked_place t h.isRanked, fun size => ?_⟩
    · exact (place_perm t texts).nodup_iff.2 (List.nodup_cons.2 ⟨hmem, h.nodup⟩)
    · rw [ofSize_place h.isRanked, ofSize_append, ofSize_append, h.order]

theorem IsRankingOf.filter (h : IsRankingOf texts members) (p : String → Bool) :
    IsRankingOf (texts.filter p) (members.filter p) where
  nodup := h.nodup.filter p
  isRanked := List.Pairwise.filter p h.isRanked
  order size := by rw [ofSize_filter, ofSize_filter, h.order]

/-- Texts that are given as a list join one after the other, the empty ones left out. -/
theorem isRankingOf_ofList (given : List String) :
    IsRankingOf (ofList given) ((given.filter (· != "")).foldl join []) := by
  have hfold : ∀ given texts members : List String, IsRankingOf texts members →
      IsRankingOf (given.foldl Ranked.add texts) (given.foldl join members) := by
    intro given
    induction given with
    | nil => exact fun _ _ h => h
    | cons t given ih => exact fun texts members h => ih _ _ (h.add t)
  exact hfold _ [] [] isRankingOf_nil

/-! ## Sorting -/

/-- Whether `s` may stand before `t`. -/
def ranksBefore (s t : String) : Bool :=
  t.utf8ByteSize ≤ s.utf8ByteSize

theorem ranksBefore_trans (s t u : String) (h : ranksBefore s t = true)
    (h' : ranksBefore t u = true) : ranksBefore s u = true := by
  simp only [ranksBefore, decide_eq_true_eq] at h h' ⊢
  omega

theorem ranksBefore_total (s t : String) : (ranksBefore s t || ranksBefore t s) = true := by
  simp only [ranksBefore, Bool.or_eq_true, decide_eq_true_eq]
  omega

theorem isRanked_mergeSort (members : List String) : IsRanked (members.mergeSort ranksBefore) :=
  (List.pairwise_mergeSort ranksBefore_trans ranksBefore_total members).imp of_decide_eq_true

/-- The sort is stable: it keeps the texts of one size in their order. -/
theorem ofSize_mergeSort (members : List String) :
    ofSize size (members.mergeSort ranksBefore) = ofSize size members := by
  have hsame : (ofSize size members).Pairwise fun s t => ranksBefore s t = true := by
    refine List.Pairwise.imp_of_mem ?_ (List.pairwise_of_forall fun _ _ => trivial)
    intro s t hs ht _
    simp only [ranksBefore, decide_eq_true_eq, (mem_ofSize.1 hs).2, (mem_ofSize.1 ht).2, le_refl]
  have hsublist : (ofSize size members).Sublist (members.mergeSort ranksBefore) :=
    List.sublist_mergeSort ranksBefore_trans ranksBefore_total hsame List.filter_sublist
  have hfiltered := hsublist.filter fun t => decide (t.utf8ByteSize = size)
  have htwice : (ofSize size members).filter (fun t => decide (t.utf8ByteSize = size)) =
      ofSize size members := by
    rw [List.filter_eq_self]
    exact fun t ht => by simpa using (mem_ofSize.1 ht).2
  rw [htwice] at hfiltered
  exact (hfiltered.eq_of_length
    ((List.mergeSort_perm members ranksBefore).filter _).length_eq.symm).symm

/-- The ranking of some members is what a stable sort makes of them. -/
theorem IsRankingOf.eq_mergeSort (h : IsRankingOf texts members) :
    texts = members.mergeSort ranksBefore :=
  eq_of_ofSize_eq h.isRanked (isRanked_mergeSort members) fun size =>
    (h.order size).trans (ofSize_mergeSort members).symm

end Scaffold.Ranked
