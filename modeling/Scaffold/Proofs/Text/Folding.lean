import Scaffold.Proofs.Text.CaseData
import Scaffold.Text.Case

set_option autoImplicit false

/-! # Upper case folds

Upper case maps nothing that it has mapped once: no run of the mapping leads to a code point that it
moves, nor does an expansion (`CaseMapping.IsSettled`). So a text in upper case is its own upper case
(`upper_upper`). The case of ASCII letters is among what upper case makes the same
(`upper_congr_ascii`). -/

namespace Scaffold.Text

variable {mapping : CaseMapping} {c : Char} {m n : Nat}

/-! ## Runs that miss each other -/

/-- The run of one code point, mapped to itself. -/
def CaseRun.single (n : Nat) : CaseRun :=
  ⟨n, n, 1, n⟩

/-- Whether all code points that the run covers are even, or all are odd. -/
def CaseRun.isSparse (run : CaseRun) : Bool :=
  run.step.beq 2 || run.first.beq run.last

/-- Whether the run leads to nothing that the other one covers: there is nothing where the other one
    lies, or the run leads to even code points and the other one covers odd ones, or the other way
    round. -/
def CaseRun.misses (run other : CaseRun) : Bool :=
  Nat.blt other.last run.image || Nat.blt (run.image + (run.last - run.first)) other.first ||
    (run.isSparse && other.isSparse && run.image % 2 != other.first % 2)

theorem CaseRun.covers_single : (CaseRun.single n).covers n = true := by
  simp [covers, single]

/-- The code points of a sparse run lie an even distance apart. -/
theorem CaseRun.even_of_isSparse {run : CaseRun} (hsparse : run.isSparse = true)
    (h : run.covers n = true) : (n - run.first) % 2 = 0 := by
  obtain ⟨⟨hfirst, hlast⟩, hstep⟩ := covers_iff.1 h
  unfold isSparse at hsparse
  rw [Bool.or_eq_true, Nat.beq_eq, Nat.beq_eq] at hsparse
  rcases hsparse with htwo | hone
  · rwa [htwo] at hstep
  · omega

theorem CaseRun.not_covers_of_misses {run other : CaseRun} (h : run.misses other = true)
    (hcovers : run.covers n = true) : other.covers (run.image + (n - run.first)) = false := by
  rw [← Bool.not_eq_true]
  intro hother
  obtain ⟨⟨hfirst, hlast⟩, -⟩ := covers_iff.1 hcovers
  obtain ⟨⟨hfirst', hlast'⟩, -⟩ := covers_iff.1 hother
  unfold misses at h
  simp only [Bool.or_eq_true, Bool.and_eq_true, Nat.blt_eq, bne_iff_ne] at h
  rcases h with (habove | hbelow) | ⟨⟨hsparse, hsparse'⟩, hparity⟩
  · omega
  · omega
  · have heven := even_of_isSparse hsparse hcovers
    have heven' := even_of_isSparse hsparse' hother
    omega

/-! ## Settled mappings -/

/-- What the mapping has made it maps to itself. -/
structure CaseMapping.IsSettled (mapping : CaseMapping) : Prop where
  runs : ∀ run ∈ mapping.runs, ∀ other ∈ mapping.runs, run.misses other = true
  keys : ∀ run ∈ mapping.runs, ∀ expansion ∈ mapping.expansions,
    run.misses (.single expansion.1) = true
  images : ∀ expansion ∈ mapping.expansions, ∀ n ∈ expansion.2, mapping.image n = [n]

theorem upperMapping_isSettled : upperMapping.IsSettled where
  runs := by
    have hruns : (upperMapping.runs.all fun run => upperMapping.runs.all run.misses) = true := by
      decide +kernel
    simpa only [List.all_eq_true] using hruns
  keys := by
    have hkeys : (upperMapping.runs.all fun run =>
        upperMapping.expansions.all fun expansion => run.misses (.single expansion.1)) = true := by
      decide +kernel
    simpa only [List.all_eq_true] using hkeys
  images := by decide +kernel

theorem CaseMapping.IsSettled.image_of_mem (h : mapping.IsSettled) (hn : n ∈ mapping.image m) :
    mapping.image n = [n] := by
  rcases mapping.image_cases m with ⟨run, hrun, hcovers, himage⟩ | ⟨images, hmem, himage⟩ | himage
  · rw [himage, List.mem_singleton] at hn
    subst hn
    rcases mapping.image_cases (run.image + (m - run.first)) with
      ⟨other, hother, hmoved, -⟩ | ⟨images, hmem, -⟩ | hstays
    · rw [CaseRun.not_covers_of_misses (h.runs run hrun other hother) hcovers] at hmoved
      exact absurd hmoved Bool.false_ne_true
    · have hmissed := CaseRun.not_covers_of_misses (h.keys run hrun _ hmem) hcovers
      rw [CaseRun.covers_single] at hmissed
      exact absurd hmissed.symm Bool.false_ne_true
    · exact hstays
  · rw [himage] at hn
    exact h.images _ hmem n hn
  · rw [himage, List.mem_singleton] at hn
    rwa [hn]

/-! ## Upper case twice -/

theorem upperMapping_apply_of_mem {d : Char} (h : d ∈ upperMapping.apply c) :
    upperMapping.apply d = [d] := by
  unfold CaseMapping.apply at h
  obtain ⟨n, hn, rfl⟩ := List.mem_map.1 h
  rcases toNat_ofNat_or n with hcode | hnull
  · unfold CaseMapping.apply
    rw [hcode, upperMapping_isSettled.image_of_mem hn, List.map_singleton]
  · rw [hnull]
    decide +kernel

theorem upperChars_upperChars (cs : List Char) : upperChars (upperChars cs) = upperChars cs := by
  unfold upperChars
  rw [List.flatMap_assoc]
  congr 1
  funext c
  calc (upperMapping.apply c).flatMap upperMapping.apply
      = (upperMapping.apply c).flatMap fun d => [d] :=
        List.flatMap_congr fun d hd => upperMapping_apply_of_mem hd
    _ = upperMapping.apply c := List.flatMap_singleton' _

/-- A text in upper case is its own upper case. -/
theorem upper_upper (s : String) : upper (upper s) = upper s := by
  unfold upper
  rw [String.toList_ofList, upperChars_upperChars]

/-! ## ASCII letters -/

/-- The texts differ in nothing but the case of ASCII letters. -/
def SameButAsciiCase (s t : String) : Prop :=
  s.toList.map Char.toLower = t.toList.map Char.toLower

theorem upperMapping_apply_toLower (c : Char) :
    upperMapping.apply c.toLower = upperMapping.apply c := by
  by_cases hcapital : 65 ≤ c.toNat ∧ c.toNat ≤ 90
  · have hletters : ∀ n ∈ List.range' 65 26,
        upperMapping.apply (Char.ofNat n).toLower = upperMapping.apply (Char.ofNat n) := by
      decide +kernel
    have hc := hletters c.toNat (by rw [List.mem_range'_1]; omega)
    rwa [Char.ofNat_toNat] at hc
  · have hsame : c.toLower = c := by
      unfold Char.toLower
      refine dif_neg fun h => hcapital ?_
      exact ⟨UInt32.le_iff_toNat_le.1 h.1, UInt32.le_iff_toNat_le.1 h.2⟩
    rw [hsame]

/-- The case of ASCII letters makes no difference to the upper case. -/
theorem upper_congr_ascii {s t : String} (h : SameButAsciiCase s t) : upper s = upper t := by
  have hfolded : ∀ cs : List Char, upperChars (cs.map Char.toLower) = upperChars cs := by
    intro cs
    unfold upperChars
    rw [List.flatMap_map]
    exact List.flatMap_congr fun c _ => upperMapping_apply_toLower c
  unfold upper
  rw [← hfolded s.toList, h, hfolded]

end Scaffold.Text
