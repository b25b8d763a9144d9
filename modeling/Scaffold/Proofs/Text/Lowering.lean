import Scaffold.Proofs.Text.Letters

set_option autoImplicit false

/-! # Lower case after upper case

A text that is put in upper case and then in lower case comes out as if it had been put in lower case
alone, if and only if each of its letters is restored and each small sigma has the form that its
place in the word asks for (`lower_upper_iff`). The two texts are compared letter by letter: what
lower case makes of a letter is never longer than what it makes of the letter's upper case, so texts
that agree agree in each letter. -/

namespace Scaffold.Text

variable {before ubefore cs : List Char} {c d : Char}

/-- A word ends between the texts, of which the first is in reverse order: a cased letter stands
    before and none behind. -/
def endsWord (before after : List Char) : Bool :=
  leadsToCased before && !leadsToCased after

/-- The letter comes out of lower case like its upper case: it is restored, and if it is a small sigma,
    it is the final one where a word ends and the other one elsewhere. -/
def LowersAlikeAt (before : List Char) (c : Char) (after : List Char) : Prop :=
  (c ≠ 'ς' → IsRestored c) ∧ (c = 'σ' ∨ c = 'ς' → (c = 'ς' ↔ endsWord before after = true))

/-- Each letter of the text behind `before`, which is in reverse order, comes out of lower case like
    its upper case. -/
def LowersAlike (before cs : List Char) : Prop :=
  ∀ front c back, cs = front ++ c :: back → LowersAlikeAt (front.reverse ++ before) c back

/-! ## Letter by letter -/

/-- The small sigma in the form that its place asks for. -/
def sigmaAt (before after : List Char) : Char :=
  if endsWord before after then 'ς' else 'σ'

theorem lowerAfter_sigma (before cs : List Char) :
    lowerAfter before ('Σ' :: cs) = sigmaAt before cs :: lowerAfter ('Σ' :: before) cs := by
  rw [lowerAfter, if_pos rfl]
  unfold sigmaAt endsWord
  split <;> rfl

theorem lowerAfter_cons_of_ne (hc : c ≠ 'Σ') (before cs : List Char) :
    lowerAfter before (c :: cs) = lowerMapping.apply c ++ lowerAfter (c :: before) cs := by
  rw [lowerAfter, if_neg hc]

theorem lowerAfter_append (h : 'Σ' ∉ cs) (before after : List Char) :
    lowerAfter before (cs ++ after) =
      cs.flatMap lowerMapping.apply ++ lowerAfter (cs.reverse ++ before) after := by
  induction cs generalizing before with
  | nil => rfl
  | cons c cs ih =>
    rw [List.mem_cons, not_or] at h
    rw [List.cons_append, lowerAfter_cons_of_ne fun hc => h.1 hc.symm, ih h.2, List.flatMap_cons,
      List.append_assoc, List.reverse_cons, List.append_assoc, List.singleton_append]

/-- How long a text in lower case is does not depend on the ends of its words. -/
theorem length_lowerAfter (before cs : List Char) :
    (lowerAfter before cs).length = (cs.flatMap lowerMapping.apply).length := by
  induction cs generalizing before with
  | nil => rfl
  | cons c cs ih =>
    by_cases hc : c = 'Σ'
    · subst hc
      have hsigma : lowerMapping.apply 'Σ' = ['σ'] := by decide +kernel
      rw [lowerAfter_sigma, List.flatMap_cons, hsigma, List.singleton_append, List.length_cons,
        List.length_cons, ih]
    · rw [lowerAfter_cons_of_ne hc, List.flatMap_cons, List.length_append, List.length_append, ih]

theorem length_lowerAfter_le (before ubefore cs : List Char) :
    (lowerAfter before cs).length ≤ (lowerAfter ubefore (upperChars cs)).length := by
  rw [length_lowerAfter, length_lowerAfter]
  unfold upperChars
  induction cs with
  | nil => exact Nat.le_refl 0
  | cons c cs ih =>
    have hfirst := length_lower_le_length_flatMap c
    rw [List.flatMap_cons, List.flatMap_cons, List.flatMap_append, List.length_append,
      List.length_append]
    omega

/-! ## The ends of words -/

theorem exists_standsFor (h : c ≠ 'ς' → IsRestored c) : ∃ d, StandsFor d c := by
  by_cases hfinal : c = 'ς'
  · subst hfinal
    exact ⟨'Σ', by decide +kernel, by decide +kernel, by decide +kernel⟩
  · exact (h hfinal).exists_standsFor

theorem StandsFor.leadsToCased_cons (h : StandsFor d c)
    (hbefore : leadsToCased ubefore = leadsToCased before) :
    leadsToCased (d :: ubefore) = leadsToCased (c :: before) := by
  rw [leadsToCased, leadsToCased, h.cased, h.ignorable, hbefore]

/-- Letters that are restored end their words in upper case where they ended them before. -/
theorem leadsToCased_upperChars (h : ∀ c ∈ cs, c ≠ 'ς' → IsRestored c) :
    leadsToCased (upperChars cs) = leadsToCased cs := by
  induction cs with
  | nil => rfl
  | cons c cs ih =>
    obtain ⟨d, hd⟩ := exists_standsFor (h c List.mem_cons_self)
    have hrest := ih fun other hother => h other (List.mem_cons_of_mem c hother)
    unfold upperChars at hrest ⊢
    rw [List.flatMap_cons, hd.upper, List.singleton_append]
    exact hd.leadsToCased_cons hrest

/-! ## Texts that lower alike -/

theorem lowersAlike_cons_iff :
    LowersAlike before (c :: cs) ↔ LowersAlikeAt before c cs ∧ LowersAlike (c :: before) cs := by
  constructor
  · intro h
    refine ⟨h [] c cs rfl, fun front other back hcs => ?_⟩
    have hplace := h (c :: front) other back (by rw [hcs]; rfl)
    rwa [List.reverse_cons, List.append_assoc, List.singleton_append] at hplace
  · rintro ⟨hfirst, hrest⟩ front other back hcs
    cases front with
    | nil =>
      obtain ⟨rfl, rfl⟩ := List.cons.inj hcs
      exact hfirst
    | cons first front =>
      obtain ⟨rfl, hbehind⟩ := List.cons.inj hcs
      have hplace := hrest front other back hbehind
      rwa [List.reverse_cons, List.append_assoc, List.singleton_append]

theorem LowersAlike.isRestored (h : LowersAlike before cs) (hc : c ∈ cs) :
    c ≠ 'ς' → IsRestored c := by
  obtain ⟨front, back, rfl⟩ := List.append_of_mem hc
  exact (h front c back rfl).1

/-- A letter that is no sigma comes out alike wherever it stands. -/
theorem lowersAlikeAt_iff_isRestored (hsmall : c ≠ 'σ') (hfinal : c ≠ 'ς') :
    LowersAlikeAt before c cs ↔ IsRestored c := by
  unfold LowersAlikeAt
  simp [hsmall, hfinal]

/-- A sigma comes out alike in the form that its place asks for. A capital has none to keep. -/
theorem sigmaAt_eq_iff (hc : c = 'Σ' ∨ c = 'σ' ∨ c = 'ς') :
    sigmaAt before cs = (if c = 'Σ' then sigmaAt before cs else c) ↔
      LowersAlikeAt before c cs := by
  have hcapital : IsRestored 'Σ' := by decide +kernel
  have hsmall : IsRestored 'σ' := by decide +kernel
  unfold LowersAlikeAt sigmaAt
  rcases hc with rfl | rfl | rfl
  · simp [hcapital]
  · simp [hsmall]
  · simp

theorem lowerAfter_of_sigma (hc : c = 'Σ' ∨ c = 'σ' ∨ c = 'ς') (before cs : List Char) :
    lowerAfter before (c :: cs) =
      (if c = 'Σ' then sigmaAt before cs else c) :: lowerAfter (c :: before) cs := by
  rcases hc with rfl | rfl | rfl
  · rw [if_pos rfl, lowerAfter_sigma]
  · rfl
  · rfl

/-- Lower case makes the same of a text and of its upper case if and only if it does so at each
    letter. -/
theorem lowerAfter_upperChars_iff (h : leadsToCased ubefore = leadsToCased before)
    (cs : List Char) :
    lowerAfter ubefore (upperChars cs) = lowerAfter before cs ↔ LowersAlike before cs := by
  induction cs generalizing before ubefore with
  | nil => simp [upperChars, lowerAfter, LowersAlike]
  | cons c cs ih =>
    have hupper : upperChars (c :: cs) = upperMapping.apply c ++ upperChars cs := rfl
    rw [lowersAlike_cons_iff, hupper]
    by_cases hsigma : c = 'Σ' ∨ c = 'σ' ∨ c = 'ς'
    · have hcapital : StandsFor 'Σ' c := by
        rcases hsigma with rfl | rfl | rfl <;>
          exact ⟨by decide +kernel, by decide +kernel, by decide +kernel⟩
      rw [hcapital.upper, List.singleton_append, lowerAfter_sigma, lowerAfter_of_sigma hsigma,
        List.cons.injEq, ih (hcapital.leadsToCased_cons h)]
      refine and_congr_left fun hrest => ?_
      -- the letters behind end the word as they did before
      have hplace : sigmaAt ubefore (upperChars cs) = sigmaAt before cs := by
        unfold sigmaAt endsWord
        rw [h, leadsToCased_upperChars fun c hc => hrest.isRestored hc]
      rw [hplace, sigmaAt_eq_iff hsigma]
    · have hfree : 'Σ' ∉ upperMapping.apply c := fun hmem => hsigma (eq_of_sigma_mem hmem)
      simp only [not_or] at hsigma
      obtain ⟨hcapital, hsmall, hfinal⟩ := hsigma
      rw [lowersAlikeAt_iff_isRestored hsmall hfinal, lowerAfter_append hfree,
        lowerAfter_cons_of_ne hcapital]
      constructor
      · intro heq
        have hlength := congrArg List.length heq
        have hfirst := length_lower_le_length_flatMap c
        have hrest := length_lowerAfter_le (c :: before)
          ((upperMapping.apply c).reverse ++ ubefore) cs
        rw [List.length_append, List.length_append] at hlength
        obtain ⟨hrestored, hbehind⟩ := List.append_inj heq (by omega)
        obtain ⟨d, hd⟩ := IsRestored.exists_standsFor hrestored
        rw [hd.upper] at hbehind
        exact ⟨hrestored, (ih (hd.leadsToCased_cons h)).1 hbehind⟩
      · rintro ⟨hrestored, hrest⟩
        obtain ⟨d, hd⟩ := hrestored.exists_standsFor
        have hbehind := (ih (hd.leadsToCased_cons h)).2 hrest
        rw [hrestored, hd.upper]
        exact congrArg (lowerMapping.apply c ++ ·) hbehind

/-- Lower case after upper case is lower case for exactly the texts that come out alike at each
    letter. -/
theorem lower_upper_iff (s : String) : lower (upper s) = lower s ↔ LowersAlike [] s.toList := by
  unfold lower upper lowerChars
  rw [String.toList_ofList, String.ofList_inj]
  exact lowerAfter_upperChars_iff rfl s.toList

end Scaffold.Text
