import Scaffold.Proofs.Text.CaseData
import Scaffold.Text.Case

set_option autoImplicit false

/-! # Letters that lower case restores

Lower case undoes upper case for most letters but not for all of them: some have an upper case of
several letters and some share it with others, so that lower case finds another letter there
(`IsRestored`). A letter that is restored has an upper case of one character, which the search for
the end of a word treats like the letter itself (`IsRestored.exists_standsFor`). -/

namespace Scaffold.Text

variable {c d : Char} {n first last : Nat}

/-- Lower case makes of the upper case of the character what it makes of the character. -/
def IsRestored (c : Char) : Prop :=
  (upperMapping.apply c).flatMap lowerMapping.apply = lowerMapping.apply c

instance : DecidablePred IsRestored := fun c =>
  inferInstanceAs (Decidable (_ = lowerMapping.apply c))

/-- A sharp s becomes two letters, and a long one shares its capital with the short one. -/
example : ¬ IsRestored 'ß' ∧ ¬ IsRestored 'ſ' ∧ IsRestored 's' ∧ IsRestored 'Ä' := by
  decide +kernel

/-- The upper case of `c` is `d`, and where a word ends does not depend on which of them is there. -/
structure StandsFor (d c : Char) : Prop where
  upper : upperMapping.apply c = [d]
  cased : isCased d = isCased c
  ignorable : isCaseIgnorable d = isCaseIgnorable c

/-! ## Stretches of code points -/

/-- Whether one of the ranges holds all code points from `first` to `last`. -/
def withinRanges (ranges : List (Nat × Nat)) (first last : Nat) : Bool :=
  ranges.any fun range => range.1.ble first && last.ble range.2

/-- Whether no range holds a code point from `first` to `last`. -/
def avoidsRanges (ranges : List (Nat × Nat)) (first last : Nat) : Bool :=
  ranges.all fun range => last.blt range.1 || range.2.blt first

theorem inRanges_of_within {ranges : List (Nat × Nat)} (h : withinRanges ranges first last = true)
    (hfirst : first ≤ c.toNat) (hlast : c.toNat ≤ last) : inRanges ranges c = true := by
  obtain ⟨range, hrange, hboth⟩ := List.any_eq_true.1 h
  rw [Bool.and_eq_true, Nat.ble_eq, Nat.ble_eq] at hboth
  refine List.any_eq_true.2 ⟨range, hrange, ?_⟩
  rw [Bool.and_eq_true, decide_eq_true_eq, decide_eq_true_eq]
  omega

theorem inRanges_of_avoids {ranges : List (Nat × Nat)} (h : avoidsRanges ranges first last = true)
    (hfirst : first ≤ c.toNat) (hlast : c.toNat ≤ last) : inRanges ranges c = false := by
  refine List.any_eq_false.2 fun range hrange hin => ?_
  have hapart := List.all_eq_true.1 h range hrange
  rw [Bool.or_eq_true, Nat.blt_eq, Nat.blt_eq] at hapart
  rw [Bool.and_eq_true, decide_eq_true_eq, decide_eq_true_eq] at hin
  omega

/-! ## What upper case moves -/

/-- The iota below a letter: the one mark among the letters that upper case moves. -/
def iotaBelow : Nat := 0x0345

/-- Stretches without case ignorable code points in which the letters lie that upper case moves, and
    what it moves them to. -/
def letterStretches : List (Nat × Nat) :=
    [(0x0041, 0x005A), (0x0061, 0x007A), (0x00B5, 0x00B5), (0x00C0, 0x029E), (0x0370, 0x0373),
    (0x0376, 0x0377), (0x037B, 0x037F), (0x0386, 0x0386), (0x0388, 0x0481), (0x048A, 0x0556),
    (0x0561, 0x0586), (0x10A0, 0x10FA), (0x10FD, 0x10FF), (0x13A0, 0x13FD), (0x1C80, 0x1CBF),
    (0x1D79, 0x1D8E), (0x1E00, 0x1FBB), (0x1FBE, 0x1FBE), (0x1FC8, 0x1FCB), (0x1FD0, 0x1FDB),
    (0x1FE0, 0x1FEC), (0x1FF8, 0x1FFB), (0x2132, 0x2C76), (0x2C7E, 0x2CEE), (0x2CF2, 0x2D2D),
    (0xA640, 0xA66D), (0xA680, 0xA69B), (0xA722, 0xA76F), (0xA779, 0xA787), (0xA78B, 0xA7DC),
    (0xA7F5, 0xA7F6), (0xAB53, 0xAB53), (0xAB70, 0xABBF), (0xFF21, 0xFF3A), (0xFF41, 0xFF5A),
    (0x10400, 0x105BC), (0x10C80, 0x10CF2), (0x10D50, 0x10D65), (0x10D70, 0x10D85),
    (0x118A0, 0x118DF), (0x16E40, 0x16ED3), (0x1E900, 0x1E943)]

/-- The code points lie in a stretch and are cased. The stretch comes first: a look at it saves one
    at the far longer list of case ignorable ranges. -/
def areLetters (first last : Nat) : Bool :=
  withinRanges letterStretches first last && withinRanges casedRanges first last

/-- How far the code points that a run covers lie behind its first one. -/
def CaseRun.offsets (run : CaseRun) : List Nat :=
  (List.range ((run.last - run.first) / run.step + 1)).map (run.step * ·)

/-- Whether a run moves letters, and to letters. Where what is between them is none, they are looked
    at one by one. -/
def CaseRun.movesLetters (run : CaseRun) : Bool :=
  areLetters run.first run.last &&
    (areLetters run.image (run.image + (run.last - run.first)) ||
      run.offsets.all fun offset => areLetters (run.image + offset) (run.image + offset))

theorem letterStretches_avoid : (letterStretches.all fun stretch =>
    avoidsRanges caseIgnorableRanges stretch.1 stretch.2) = true := by
  decide +kernel

theorem letterStretches_valid : (letterStretches.all fun stretch =>
    stretch.2.blt 0xD800 || (Nat.blt 0xDFFF stretch.1 && stretch.2.blt 0x110000)) = true := by
  decide +kernel

theorem movesLetters_of_mem_runs : (upperMapping.runs.all fun run =>
    run.first.beq iotaBelow || run.movesLetters) = true := by
  decide +kernel

theorem CaseRun.sub_mem_offsets {run : CaseRun} (h : run.covers n = true) :
    n - run.first ∈ run.offsets := by
  obtain ⟨⟨hfirst, hlast⟩, hstep⟩ := covers_iff.1 h
  refine List.mem_map.2 ⟨(n - run.first) / run.step, ?_, Nat.mul_div_cancel' ?_⟩
  · have hle : (n - run.first) / run.step ≤ (run.last - run.first) / run.step :=
      Nat.div_le_div_right (by omega)
    rw [List.mem_range]
    omega
  · exact Nat.dvd_of_mod_eq_zero hstep

/-- Letters are cased, not ignorable, and code points at all. -/
theorem letter_of_areLetters (h : areLetters first last = true) (hfirst : first ≤ n)
    (hlast : n ≤ last) : (Char.ofNat n).toNat = n ∧ isCased (Char.ofNat n) = true ∧
      isCaseIgnorable (Char.ofNat n) = false := by
  unfold areLetters at h
  rw [Bool.and_eq_true] at h
  obtain ⟨hstretch, hcased⟩ := h
  obtain ⟨stretch, hmem, hbounds⟩ := List.any_eq_true.1 hstretch
  rw [Bool.and_eq_true, Nat.ble_eq, Nat.ble_eq] at hbounds
  have hvalid : n.isValidChar := by
    have hstretch := List.all_eq_true.1 letterStretches_valid stretch hmem
    rw [Bool.or_eq_true, Bool.and_eq_true, Nat.blt_eq, Nat.blt_eq, Nat.blt_eq] at hstretch
    unfold Nat.isValidChar
    omega
  have hcode := toNat_ofNat_of_isValidChar hvalid
  refine ⟨hcode, inRanges_of_within hcased (by omega) (by omega), ?_⟩
  exact inRanges_of_avoids (List.all_eq_true.1 letterStretches_avoid stretch hmem) (by omega)
    (by omega)

theorem standsFor_of_run {run : CaseRun} (hrun : run ∈ upperMapping.runs)
    (hiota : c.toNat ≠ iotaBelow) (hcovers : run.covers c.toNat = true)
    (happly : upperMapping.apply c = [Char.ofNat (run.image + (c.toNat - run.first))]) :
    StandsFor (Char.ofNat (run.image + (c.toNat - run.first))) c := by
  obtain ⟨⟨hfirst, hlast⟩, -⟩ := CaseRun.covers_iff.1 hcovers
  have hmoves : run.movesLetters = true := by
    have hdata := List.all_eq_true.1 movesLetters_of_mem_runs run hrun
    rw [Bool.or_eq_true, Nat.beq_eq] at hdata
    refine hdata.resolve_left fun hrunIota => ?_
    -- the run of the iota holds nothing else
    have halone : ∀ other ∈ upperMapping.runs, other.first = iotaBelow → other.last = iotaBelow := by
      decide +kernel
    have hend := halone run hrun hrunIota
    omega
  unfold CaseRun.movesLetters at hmoves
  rw [Bool.and_eq_true, Bool.or_eq_true] at hmoves
  obtain ⟨hsource, himage⟩ := hmoves
  obtain ⟨-, hcased, hignorable⟩ := letter_of_areLetters hsource hfirst hlast
  rw [Char.ofNat_toNat] at hcased hignorable
  have hletter : isCased (Char.ofNat (run.image + (c.toNat - run.first))) = true ∧
      isCaseIgnorable (Char.ofNat (run.image + (c.toNat - run.first))) = false := by
    rcases himage with hall | hsingle
    · exact (letter_of_areLetters hall (by omega) (by omega)).2
    · have hpoint := List.all_eq_true.1 hsingle _ (CaseRun.sub_mem_offsets hcovers)
      exact (letter_of_areLetters hpoint (Nat.le_refl _) (Nat.le_refl _)).2
  exact ⟨happly, hletter.1.trans hcased.symm, hletter.2.trans hignorable.symm⟩

/-! ## How many characters there are -/

theorem lowerMapping_apply_ne_nil (c : Char) : lowerMapping.apply c ≠ [] :=
  CaseMapping.apply_ne_nil (by decide) c

/-- Lower case makes one character of every one but the capital i with a dot. -/
theorem length_lowerMapping_apply (hc : c ≠ 'İ') : (lowerMapping.apply c).length = 1 := by
  unfold CaseMapping.apply
  rw [List.length_map]
  rcases lowerMapping.image_cases c.toNat with
    ⟨run, -, -, himage⟩ | ⟨images, hmem, -⟩ | himage
  · rw [himage]
    rfl
  · exfalso
    have hexpansions : lowerMapping.expansions = [(0x0130, [0x0069, 0x0307])] := rfl
    rw [hexpansions, List.mem_singleton, Prod.mk.injEq] at hmem
    exact hc (Char.toNat_inj.1 hmem.1)
  · rw [himage]
    rfl

theorem length_le_length_flatMap_lower (cs : List Char) :
    cs.length ≤ (cs.flatMap lowerMapping.apply).length := by
  induction cs with
  | nil => exact Nat.le_refl 0
  | cons c cs ih =>
    have hfirst := List.length_pos_iff.2 (lowerMapping_apply_ne_nil c)
    rw [List.flatMap_cons, List.length_append, List.length_cons]
    omega

/-- Lower case leaves the upper case of a character at least as long as the character. -/
theorem length_lower_le_length_flatMap (c : Char) : (lowerMapping.apply c).length ≤
    ((upperMapping.apply c).flatMap lowerMapping.apply).length := by
  by_cases hc : c = 'İ'
  · subst hc
    have hrestored : IsRestored 'İ' := by decide +kernel
    exact Nat.le_of_eq (congrArg List.length hrestored.symm)
  · rw [length_lowerMapping_apply hc]
    refine Nat.le_trans ?_ (length_le_length_flatMap_lower _)
    exact List.length_pos_iff.2 (CaseMapping.apply_ne_nil (by decide) c)

/-- The upper case of a letter that is restored is one character, which stands for it. -/
theorem IsRestored.exists_standsFor (h : IsRestored c) : ∃ d, StandsFor d c := by
  by_cases hc : c = 'İ'
  · subst hc
    exact ⟨'İ', by decide +kernel, rfl, rfl⟩
  rcases upperMapping.image_cases c.toNat with
    ⟨run, hrun, hcovers, himage⟩ | ⟨images, hmem, himage⟩ | himage
  · refine ⟨_, standsFor_of_run hrun ?_ hcovers (by rw [CaseMapping.apply, himage]; rfl)⟩
    intro hiota
    have hlost : ¬ IsRestored (Char.ofNat iotaBelow) := by decide +kernel
    rw [← hiota, Char.ofNat_toNat] at hlost
    exact hlost h
  · -- an expansion makes more characters than lower case makes of the letter
    exfalso
    have hexpansions : ∀ expansion ∈ upperMapping.expansions, 2 ≤ expansion.2.length := by decide
    have htwo := hexpansions _ hmem
    have hmore := length_le_length_flatMap_lower (upperMapping.apply c)
    unfold IsRestored at h
    rw [h, length_lowerMapping_apply hc, CaseMapping.apply, himage, List.length_map] at hmore
    dsimp only at htwo
    omega
  · refine ⟨c, ?_, rfl, rfl⟩
    rw [CaseMapping.apply, himage, List.map_singleton, Char.ofNat_toNat]

/-! ## The sigma -/

/-- Upper case makes a capital sigma of the two small ones and of no other letter. -/
theorem eq_of_sigma_mem (h : 'Σ' ∈ upperMapping.apply c) : c = 'Σ' ∨ c = 'σ' ∨ c = 'ς' := by
  obtain ⟨n, hn, hsigma⟩ := List.mem_map.1 h
  have hcode : n = 0x03A3 := by
    rcases toNat_ofNat_or n with hcode | hnull
    · rw [← hcode, hsigma]
      rfl
    · rw [hsigma] at hnull
      exact absurd hnull (by decide)
  subst hcode
  rcases upperMapping.image_cases c.toNat with
    ⟨run, hrun, hcovers, himage⟩ | ⟨images, hmem, himage⟩ | himage
  · have hruns : ∀ run ∈ upperMapping.runs, run.image ≤ 0x03A3 →
        0x03A3 ≤ run.image + (run.last - run.first) →
        run.first + (0x03A3 - run.image) = 0x03C2 ∨ run.first + (0x03A3 - run.image) = 0x03C3 := by
      decide +kernel
    obtain ⟨⟨hfirst, hlast⟩, -⟩ := CaseRun.covers_iff.1 hcovers
    rw [himage, List.mem_singleton] at hn
    rcases hruns run hrun (by omega) (by omega) with hfinal | hsmall
    · exact Or.inr (Or.inr (Char.toNat_inj.1 (show c.toNat = 0x03C2 by omega)))
    · exact Or.inr (Or.inl (Char.toNat_inj.1 (show c.toNat = 0x03C3 by omega)))
  · have hexpansions : ∀ expansion ∈ upperMapping.expansions, 0x03A3 ∉ expansion.2 := by decide
    rw [himage] at hn
    exact absurd hn (hexpansions _ hmem)
  · rw [himage, List.mem_singleton] at hn
    exact Or.inl (Char.toNat_inj.1 hn.symm)

end Scaffold.Text
