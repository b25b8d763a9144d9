import Scaffold.Proofs.Text.CaseData
import Scaffold.Text.Case

set_option autoImplicit false

/-! # What upper case leaves alone

Most characters that are no letters have no case: upper case maps nothing to them but themselves.
Whether it does can be read off the data of the mapping (`isCaseless_of_reaches`). A text of such
characters is the upper case of no other text (`eq_of_upper_eq`). -/

namespace Scaffold.Text

variable {mapping : CaseMapping} {c d : Char} {m n : Nat}

/-! ## The data of a mapping -/

/-- Whether a code point lies where a run maps to or stands among the images of an expansion. -/
def CaseMapping.reaches (mapping : CaseMapping) (n : Nat) : Bool :=
  mapping.runs.any (fun run => run.image ≤ n && n ≤ run.image + (run.last - run.first)) ||
    mapping.expansions.any fun expansion => expansion.2.contains n

/-- What is mapped to a code point that the data does not reach is that code point. -/
theorem CaseMapping.eq_of_mem_image (hreaches : mapping.reaches n = false)
    (h : n ∈ mapping.image m) : m = n ∧ mapping.image m = [n] := by
  unfold reaches at hreaches
  rw [Bool.or_eq_false_iff, List.any_eq_false, List.any_eq_false] at hreaches
  obtain ⟨hruns, hexpansions⟩ := hreaches
  rcases mapping.image_cases m with ⟨run, hrun, hcovers, himage⟩ | ⟨images, hmem, himage⟩ | himage
  · exfalso
    obtain ⟨⟨hfirst, hlast⟩, -⟩ := CaseRun.covers_iff.1 hcovers
    rw [himage, List.mem_singleton] at h
    refine hruns run hrun ?_
    simp only [Bool.and_eq_true, decide_eq_true_eq]
    omega
  · exfalso
    rw [himage] at h
    exact hexpansions (m, images) hmem (List.contains_iff_mem.2 h)
  · rw [himage, List.mem_singleton] at h
    exact ⟨h.symm, by rw [himage, h]⟩

/-! ## Characters and texts -/

/-- Upper case maps the character to itself, and no other one to anything that it stands in. -/
def IsCaseless (c : Char) : Prop :=
  ∀ d, c ∈ upperMapping.apply d → d = c ∧ upperMapping.apply d = [c]

theorem isCaseless_of_reaches (hc : c ≠ '\x00') (h : upperMapping.reaches c.toNat = false) :
    IsCaseless c := by
  intro d hd
  unfold CaseMapping.apply at hd ⊢
  obtain ⟨n, hn, heq⟩ := List.mem_map.1 hd
  -- what is no code point would have become the null character
  have hcode : c.toNat = n := by
    rw [← heq] at hc ⊢
    exact (toNat_ofNat_or n).resolve_right hc
  rw [hcode] at h
  obtain ⟨hsame, himage⟩ := CaseMapping.eq_of_mem_image h hn
  refine ⟨Char.toNat_inj.1 (hsame.trans hcode.symm), ?_⟩
  rw [himage, List.map_singleton, heq]

/-- Upper case leaves nothing out. -/
theorem upperMapping_apply_ne_nil (c : Char) : upperMapping.apply c ≠ [] :=
  CaseMapping.apply_ne_nil (by decide) c

theorem eq_of_upperChars_eq {cs text : List Char} (htext : ∀ c ∈ text, IsCaseless c)
    (h : upperChars cs = text) : cs = text := by
  induction cs generalizing text with
  | nil => exact h
  | cons d ds ih =>
    obtain ⟨c, rest, hc⟩ := List.exists_cons_of_ne_nil (upperMapping_apply_ne_nil d)
    unfold upperChars at h
    rw [List.flatMap_cons, hc, List.cons_append] at h
    subst h
    obtain ⟨hsame, happly⟩ := htext c List.mem_cons_self d (by rw [hc]; exact List.mem_cons_self)
    obtain rfl : rest = [] := by simpa [hc] using happly
    rw [hsame, List.nil_append]
    have hrest : ds = upperChars ds :=
      ih (fun other hother => htext other (List.mem_cons_of_mem _ hother)) rfl
    exact congrArg (List.cons c) hrest

/-- A text of caseless characters is the upper case of no text but itself. -/
theorem eq_of_upper_eq {name text : String} (htext : ∀ c ∈ text.toList, IsCaseless c)
    (h : upper name = text) : name = text := by
  rw [← String.toList_inj]
  refine eq_of_upperChars_eq htext ?_
  rw [← h]
  exact String.toList_ofList.symm

end Scaffold.Text
