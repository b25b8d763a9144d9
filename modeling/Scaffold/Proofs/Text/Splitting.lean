import Mathlib.Data.List.Infix
import Mathlib.Data.List.TakeWhile
import Scaffold.Text.Blank
import Scaffold.Text.Pieces

set_option autoImplicit false

/-! # Trimmed and split texts

What trimming and splitting leave of a text. Trimming takes a piece out of the middle of a text, and
splitting is undone by putting the separator between the pieces again; both are stated as facts
about the pieces, so that nothing else has to look at how they are found. -/

namespace Scaffold.Text

/-! ## Trimming -/

theorem trimEnd_begins (cs : List Char) : trimEnd cs <+: cs := by
  induction cs with
  | nil => exact List.prefix_rfl
  | cons c cs ih =>
    unfold trimEnd
    split
    · split
      · exact List.nil_prefix
      · exact (List.prefix_cons_inj c).2 List.nil_prefix
    · exact (List.prefix_cons_inj c).2 ih

theorem trimChars_within (cs : List Char) : trimChars cs <:+: cs :=
  (trimEnd_begins _).isInfix.trans (List.dropWhile_suffix isBlank).isInfix

theorem mem_of_mem_trimChars {c : Char} {cs : List Char} (h : c ∈ trimChars cs) : c ∈ cs :=
  (trimChars_within cs).subset h

theorem trimEnd_eq_nil_iff (cs : List Char) : trimEnd cs = [] ↔ ∀ c ∈ cs, isBlank c = true := by
  induction cs with
  | nil => simp [trimEnd]
  | cons c cs ih =>
    unfold trimEnd
    rw [List.forall_mem_cons, ← ih]
    cases htrim : trimEnd cs with
    | nil => by_cases hc : isBlank c = true <;> simp [hc]
    | cons d ds => simp

/-- What is trimmed off is blank. -/
theorem exists_eq_append_trimChars (cs : List Char) :
    ∃ before after, cs = before ++ trimChars cs ++ after ∧
      ∀ c ∈ before ++ after, isBlank c = true := by
  have hend : ∀ ds : List Char, ∃ after, ds = trimEnd ds ++ after ∧
      ∀ c ∈ after, isBlank c = true := by
    intro ds
    induction ds with
    | nil => exact ⟨[], rfl, by simp⟩
    | cons d ds ih =>
      obtain ⟨after, hds, hafter⟩ := ih
      unfold trimEnd
      split
      · next hnil =>
        rw [hnil, List.nil_append] at hds
        split
        · next hd => exact ⟨d :: ds, rfl, by rw [hds]; simpa [hd] using hafter⟩
        · exact ⟨after, by rw [hds, List.singleton_append], hafter⟩
      · exact ⟨after, by rw [List.cons_append, ← hds], hafter⟩
  obtain ⟨after, hafter, hblank⟩ := hend (cs.dropWhile isBlank)
  refine ⟨cs.takeWhile isBlank, after, ?_, fun c hc => ?_⟩
  · rw [trimChars, List.append_assoc, ← hafter, List.takeWhile_append_dropWhile]
  · rcases List.mem_append.1 hc with hc | hc
    · exact List.mem_takeWhile_imp hc
    · exact hblank c hc

/-- Exactly the blank texts trim to nothing. -/
theorem trimChars_eq_nil_iff (cs : List Char) :
    trimChars cs = [] ↔ ∀ c ∈ cs, isBlank c = true := by
  unfold trimChars
  rw [trimEnd_eq_nil_iff]
  induction cs with
  | nil => simp
  | cons c cs ih =>
    by_cases hc : isBlank c = true
    · rw [List.dropWhile_cons_of_pos hc, ih, List.forall_mem_cons]
      simp [hc]
    · rw [List.dropWhile_cons_of_neg hc]

theorem trim_eq_empty_iff (s : String) : trim s = "" ↔ ∀ c ∈ s.toList, isBlank c = true := by
  rw [← trimChars_eq_nil_iff, trim, String.ofList_eq_empty_iff]

theorem trimEnd_append_singleton (cs : List Char) (c : Char) :
    trimEnd (cs ++ [c]) = if isBlank c then trimEnd cs else cs ++ [c] := by
  induction cs with
  | nil => simp [trimEnd]
  | cons d cs ih =>
    rw [List.cons_append, trimEnd, ih]
    by_cases hc : isBlank c = true
    · simp [hc, trimEnd]
    · simp [hc]

theorem isBlank_getLast_trimEnd {cs : List Char} {c : Char}
    (h : (trimEnd cs).getLast? = some c) : isBlank c = false := by
  induction cs using List.reverseRecOn with
  | nil => simp [trimEnd] at h
  | append_singleton cs d ih =>
    rw [trimEnd_append_singleton] at h
    split at h
    · exact ih h
    · next hd =>
      rw [List.getLast?_concat, Option.some.injEq] at h
      simpa [h] using hd

/-- A text is trimmed if blanks stand neither at its beginning nor at its end. -/
theorem trimChars_eq_self_iff (cs : List Char) :
    trimChars cs = cs ↔
      (∀ c, cs.head? = some c → isBlank c = false) ∧
        ∀ c, cs.getLast? = some c → isBlank c = false := by
  unfold trimChars
  constructor
  · intro h
    have hlast : ∀ c, cs.getLast? = some c → isBlank c = false := by
      intro c hc
      rw [← h] at hc
      exact isBlank_getLast_trimEnd hc
    refine ⟨fun c hc => ?_, hlast⟩
    -- what trims to itself cannot have lost anything at its beginning
    obtain ⟨rest, rfl⟩ := List.head?_eq_some_iff.1 hc
    rw [← Bool.not_eq_true]
    intro hblank
    have hlength := (trimEnd_begins ((c :: rest).dropWhile isBlank)).length_le
    rw [h, List.dropWhile_cons_of_pos hblank] at hlength
    have hdrop := (List.dropWhile_suffix (l := rest) isBlank).length_le
    rw [List.length_cons] at hlength
    omega
  · rintro ⟨hhead, hlast⟩
    have hdrop : cs.dropWhile isBlank = cs := by
      cases cs with
      | nil => rfl
      | cons c rest => exact List.dropWhile_cons_of_neg (by simp [hhead c rfl])
    rw [hdrop]
    rcases List.eq_nil_or_concat cs with rfl | ⟨before, c, rfl⟩
    · rfl
    · rw [List.concat_eq_append] at hlast ⊢
      rw [trimEnd_append_singleton, hlast c List.getLast?_concat, if_neg Bool.false_ne_true]

/-- A text is trimmed if it begins and ends with texts that are. -/
theorem trimChars_append_append {before after : List Char} (hbefore : trimChars before = before)
    (hafter : trimChars after = after) (hne : before ≠ []) (hne' : after ≠ [])
    (middle : List Char) :
    trimChars (before ++ middle ++ after) = before ++ middle ++ after := by
  rw [trimChars_eq_self_iff] at hbefore hafter ⊢
  constructor
  · rw [List.append_assoc, List.head?_append_of_ne_nil _ hne]
    exact hbefore.1
  · rw [List.getLast?_append_of_ne_nil _ hne']
    exact hafter.2

theorem trimChars_cons_of_isBlank {c : Char} (h : isBlank c = true) (cs : List Char) :
    trimChars (c :: cs) = trimChars cs := by
  unfold trimChars
  rw [List.dropWhile_cons_of_pos h]

theorem trimChars_append_of_isBlank {c : Char} (h : isBlank c = true) (cs : List Char) :
    trimChars (cs ++ [c]) = trimChars cs := by
  unfold trimChars
  rw [List.dropWhile_append]
  split
  · next hnil =>
    rw [List.isEmpty_iff.1 hnil, List.dropWhile_cons_of_pos h]
    rfl
  · rw [trimEnd_append_singleton, if_pos h]

/-- A first character that is not blank stays. -/
theorem head?_trimChars {c : Char} (h : isBlank c = false) {cs : List Char}
    (hcs : cs.head? = some c) : (trimChars cs).head? = some c := by
  obtain ⟨rest, rfl⟩ := List.head?_eq_some_iff.1 hcs
  unfold trimChars
  rw [List.dropWhile_cons_of_neg (by simp [h]), trimEnd]
  split
  · rw [h, if_neg Bool.false_ne_true]
    rfl
  · rfl

theorem trimChars_trimChars (cs : List Char) : trimChars (trimChars cs) = trimChars cs := by
  rw [trimChars_eq_self_iff]
  refine ⟨fun c hc => ?_, fun c hc => isBlank_getLast_trimEnd hc⟩
  -- trimming the end leaves the first character that is not blank
  obtain ⟨rest, hrest⟩ := List.head?_eq_some_iff.1 hc
  obtain ⟨more, hmore⟩ := trimEnd_begins (cs.dropWhile isBlank)
  rw [← trimChars, hrest, List.cons_append] at hmore
  have hhead := List.head?_dropWhile_not isBlank cs
  rw [← hmore] at hhead
  simpa using hhead

theorem trim_trim (s : String) : trim (trim s) = trim s := by
  unfold trim
  rw [String.toList_ofList, trimChars_trimChars]

/-- A text is given by what it trims to, unless it is blank. -/
theorem nonBlank?_eq (s : String) :
    nonBlank? s = if trim s = "" then none else some (trim s) := by
  unfold nonBlank? trim
  cases trimChars s.toList with
  | nil => rfl
  | cons c cs => exact (if_neg (by simp)).symm

/-! ## Splitting -/

theorem splitChars_ne_nil (sep : Char) (cs : List Char) : splitChars sep cs ≠ [] := by
  cases cs with
  | nil => simp [splitChars]
  | cons c cs =>
    unfold splitChars
    split
    · simp
    · split <;> simp

/-- The first piece goes on until the separator comes. -/
theorem splitChars_cons_of_ne {sep c : Char} (h : c ≠ sep) (cs : List Char) :
    ∃ piece pieces, splitChars sep cs = piece :: pieces ∧
      splitChars sep (c :: cs) = (c :: piece) :: pieces := by
  obtain ⟨piece, pieces, hcs⟩ := List.exists_cons_of_ne_nil (splitChars_ne_nil sep cs)
  exact ⟨piece, pieces, hcs, by simp only [splitChars, if_neg h, hcs]⟩

theorem exists_head_splitChars {sep c : Char} (h : c ≠ sep) {cs : List Char}
    (hcs : cs.head? = some c) :
    ∃ piece pieces, splitChars sep cs = piece :: pieces ∧ piece.head? = some c := by
  obtain ⟨rest, rfl⟩ := List.head?_eq_some_iff.1 hcs
  obtain ⟨piece, pieces, -, hsplit⟩ := splitChars_cons_of_ne h rest
  exact ⟨c :: piece, pieces, hsplit, rfl⟩

theorem not_mem_of_mem_splitChars {sep : Char} {cs piece : List Char}
    (h : piece ∈ splitChars sep cs) : sep ∉ piece := by
  induction cs generalizing piece with
  | nil =>
    rw [splitChars, List.mem_singleton] at h
    simp [h]
  | cons c cs ih =>
    by_cases hc : c = sep
    · rw [splitChars, if_pos hc, List.mem_cons] at h
      rcases h with rfl | h
      · exact List.not_mem_nil
      · exact ih h
    · obtain ⟨first, others, hcs, hsplit⟩ := splitChars_cons_of_ne hc cs
      rw [hcs] at ih
      rw [hsplit, List.mem_cons] at h
      rcases h with rfl | h
      · rw [List.mem_cons, not_or]
        exact ⟨fun h => hc h.symm, ih (List.mem_cons_self ..)⟩
      · exact ih (List.mem_cons_of_mem _ h)

theorem mem_of_mem_splitChars {sep c : Char} {cs piece : List Char}
    (h : piece ∈ splitChars sep cs) (hc : c ∈ piece) : c ∈ cs := by
  induction cs generalizing piece with
  | nil =>
    rw [splitChars, List.mem_singleton] at h
    rwa [h] at hc
  | cons d cs ih =>
    by_cases hd : d = sep
    · rw [splitChars, if_pos hd, List.mem_cons] at h
      rcases h with rfl | h
      · exact absurd hc List.not_mem_nil
      · exact List.mem_cons_of_mem d (ih h hc)
    · obtain ⟨first, others, hcs, hsplit⟩ := splitChars_cons_of_ne hd cs
      rw [hcs] at ih
      rw [hsplit, List.mem_cons] at h
      rcases h with rfl | h
      · rcases List.mem_cons.1 hc with rfl | hc
        · exact List.mem_cons_self
        · exact List.mem_cons_of_mem d (ih List.mem_cons_self hc)
      · exact List.mem_cons_of_mem d (ih (List.mem_cons_of_mem _ h) hc)

/-- Splitting at a separator that stands in the text. -/
theorem splitChars_append_sep (sep : Char) (before after : List Char) :
    splitChars sep (before ++ sep :: after) = splitChars sep before ++ splitChars sep after := by
  induction before with
  | nil => simp [splitChars]
  | cons c before ih =>
    by_cases hc : c = sep
    · simp only [List.cons_append, splitChars, if_pos hc, ih]
    · obtain ⟨piece, pieces, hbefore, hsplit⟩ := splitChars_cons_of_ne hc before
      rw [hsplit, List.cons_append, splitChars, if_neg hc, ih, hbefore]
      rfl

/-- A character that is not the separator goes to the end of the last piece. -/
theorem splitChars_append_singleton_of_ne {sep c : Char} (h : c ≠ sep) (cs : List Char) :
    ∃ before last, splitChars sep cs = before ++ [last] ∧
      splitChars sep (cs ++ [c]) = before ++ [last ++ [c]] := by
  induction cs with
  | nil => exact ⟨[], [], rfl, by simp [splitChars, h]⟩
  | cons d cs ih =>
    obtain ⟨before, last, hcs, hmore⟩ := ih
    by_cases hd : d = sep
    · refine ⟨[] :: before, last, ?_, ?_⟩
      · simp [splitChars, hd, hcs]
      · simp [splitChars, hd, hmore]
    · cases before with
      | nil => exact ⟨[], d :: last, by simp [splitChars, hd, hcs], by simp [splitChars, hd, hmore]⟩
      | cons piece before =>
        refine ⟨(d :: piece) :: before, last, ?_, ?_⟩
        · simp [splitChars, hd, hcs]
        · simp [splitChars, hd, hmore]

theorem splitChars_of_not_mem {sep : Char} {cs : List Char} (h : sep ∉ cs) :
    splitChars sep cs = [cs] := by
  induction cs with
  | nil => rfl
  | cons c cs ih =>
    rw [List.mem_cons, not_or] at h
    rw [splitChars, if_neg fun hc => h.1 hc.symm, ih h.2]

/-- Splitting is undone by putting the separator between the pieces again. -/
theorem intercalate_splitChars (sep : Char) (cs : List Char) :
    [sep].intercalate (splitChars sep cs) = cs := by
  induction cs with
  | nil => simp [splitChars]
  | cons c cs ih =>
    by_cases hc : c = sep
    · obtain ⟨piece, pieces, hcs⟩ := List.exists_cons_of_ne_nil (splitChars_ne_nil sep cs)
      rw [splitChars, if_pos hc, hcs, List.intercalate_cons_cons, ← hcs, ih, hc]
      rfl
    · obtain ⟨piece, pieces, hcs, hsplit⟩ := splitChars_cons_of_ne hc cs
      rw [hcs] at ih
      rw [hsplit]
      cases pieces with
      | nil => simpa using ih
      | cons second rest =>
        rw [List.intercalate_cons_cons] at ih ⊢
        simpa using ih

/-- Pieces in which the separator does not stand are found again. -/
theorem splitChars_intercalate {sep : Char} {pieces : List (List Char)} (hne : pieces ≠ [])
    (h : ∀ piece ∈ pieces, sep ∉ piece) : splitChars sep ([sep].intercalate pieces) = pieces := by
  induction pieces with
  | nil => exact absurd rfl hne
  | cons piece pieces ih =>
    have hpiece := splitChars_of_not_mem (h piece List.mem_cons_self)
    cases pieces with
    | nil =>
      rw [List.intercalate_singleton]
      exact hpiece
    | cons second rest =>
      have hrest := ih (List.cons_ne_nil _ _) fun other hother =>
        h other (List.mem_cons_of_mem _ hother)
      rw [List.intercalate_cons_cons, List.append_assoc, List.singleton_append,
        splitChars_append_sep, hpiece, hrest]
      rfl

end Scaffold.Text
