import Mathlib.Data.List.Infix
import Mathlib.Data.List.TakeWhile
import Scaffold.Manifest.SectionName
import Scaffold.Proofs.Text.Splitting

set_option autoImplicit false

/-! # Names in brackets

A name whose brackets are balanced comes out of its brackets as it is. The scan counts the inner
brackets that are open; with the brackets of the name counted from there on, the first bracket that
finds none to close is the one behind the name. What the scan stops behind is such a name, so a name
is read exactly where a token can be taken apart at it, and that in one way at most
(`parse?_brackets`). -/

namespace Scaffold.SectionName

/-- As many brackets close as open, and none closes before it was opened. -/
structure IsBalanced (name : List Char) : Prop where
  count_eq : name.count ']' = name.count '['
  count_le : ∀ before, before <+: name → before.count ']' ≤ before.count '['

instance (name : List Char) : Decidable (IsBalanced name) :=
  decidable_of_iff (name.count ']' = name.count '[' ∧
      ∀ before ∈ name.inits, before.count ']' ≤ before.count '[') <| by
    simp only [List.mem_inits]
    exact ⟨fun ⟨heq, hle⟩ => ⟨heq, hle⟩, fun ⟨heq, hle⟩ => ⟨heq, hle⟩⟩

/-- A name that is read from a header as it is. -/
structure WellFormed (name : String) : Prop where
  ne_empty : name ≠ ""
  trimmed : Text.trim name = name
  isBalanced : IsBalanced name.toList
  colon_not_mem : ':' ∉ name.toList

instance (name : String) : Decidable (WellFormed name) :=
  decidable_of_iff (name ≠ "" ∧ Text.trim name = name ∧ IsBalanced name.toList ∧
      ':' ∉ name.toList)
    ⟨fun ⟨h₁, h₂, h₃, h₄⟩ => ⟨h₁, h₂, h₃, h₄⟩, fun ⟨h₁, h₂, h₃, h₄⟩ => ⟨h₁, h₂, h₃, h₄⟩⟩

/-! ## The scan -/

/-- The text closes `depth` brackets that were opened before it and each one that it opens itself,
    and never one that is not open. -/
structure Closes (depth : Nat) (name : List Char) : Prop where
  count_eq : name.count ']' = name.count '[' + depth
  count_le : ∀ before, before <+: name → before.count ']' ≤ before.count '[' + depth

theorem closes_zero_iff {name : List Char} : Closes 0 name ↔ IsBalanced name :=
  ⟨fun h => ⟨h.count_eq, h.count_le⟩, fun h => ⟨h.count_eq, h.count_le⟩⟩

theorem closes_nil_iff {depth : Nat} : Closes depth [] ↔ depth = 0 := by
  constructor
  · intro h
    simpa using h.count_eq.symm
  · rintro rfl
    exact ⟨rfl, fun before hbefore => by simp [List.prefix_nil.1 hbefore]⟩

/-- A text closes what is left to close behind its first character. -/
theorem closes_cons_iff {depth left : Nat} {c : Char}
    (h : [c].count ']' + left = [c].count '[' + depth) (name : List Char) :
    Closes depth (c :: name) ↔ Closes left name := by
  have hcount : ∀ (b : Char) (text : List Char), (c :: text).count b = [c].count b + text.count b :=
    fun b text => by rw [← List.count_append, List.singleton_append]
  constructor
  · intro hname
    refine ⟨?_, fun before hbefore => ?_⟩
    · have heq := hname.count_eq
      rw [hcount ']' name, hcount '[' name] at heq
      omega
    · have hle := hname.count_le (c :: before) ((List.prefix_cons_inj c).2 hbefore)
      rw [hcount ']' before, hcount '[' before] at hle
      omega
  · intro hname
    refine ⟨?_, fun before hbefore => ?_⟩
    · have heq := hname.count_eq
      rw [hcount ']' name, hcount '[' name]
      omega
    · rcases List.prefix_cons_iff.1 hbefore with rfl | ⟨rest, rfl, hrest⟩
      · simp
      · have hle := hname.count_le rest hrest
        rw [hcount ']' rest, hcount '[' rest]
        omega

theorem closes_close_iff {inner : Nat} {name : List Char} :
    Closes (inner + 1) (']' :: name) ↔ Closes inner name :=
  closes_cons_iff (by simp; omega) name

theorem closes_open_iff {depth : Nat} {name : List Char} :
    Closes depth ('[' :: name) ↔ Closes (depth + 1) name :=
  closes_cons_iff (by simp; omega) name

theorem closes_other_iff {depth : Nat} {c : Char} (hclose : c ≠ ']') (hopen : c ≠ '[')
    {name : List Char} : Closes depth (c :: name) ↔ Closes depth name :=
  closes_cons_iff (by simp [hclose, hopen]) name

theorem not_closes_zero_close (name : List Char) : ¬ Closes 0 (']' :: name) := by
  intro h
  simpa using h.count_le [']'] ((List.prefix_cons_inj _).2 List.nil_prefix)

theorem untilClosed_close (inner : Nat) (cs : List Char) :
    untilClosed (inner + 1) (']' :: cs) = (untilClosed inner cs).map (']' :: ·) := rfl

theorem untilClosed_open (depth : Nat) (cs : List Char) :
    untilClosed depth ('[' :: cs) = (untilClosed (depth + 1) cs).map ('[' :: ·) := by
  cases depth <;> rfl

theorem untilClosed_other (depth : Nat) {c : Char} (hclose : c ≠ ']') (hopen : c ≠ '[')
    (cs : List Char) : untilClosed depth (c :: cs) = (untilClosed depth cs).map (c :: ·) := by
  cases depth <;> simp [untilClosed, hclose, hopen]

/-- The scan stops behind a text that closes all that is open. -/
theorem untilClosed_append {depth : Nat} {name : List Char} (h : Closes depth name)
    (after : List Char) : untilClosed depth (name ++ ']' :: after) = some name := by
  induction name generalizing depth with
  | nil =>
    obtain rfl := closes_nil_iff.1 h
    rfl
  | cons c name ih =>
    rw [List.cons_append]
    by_cases hclose : c = ']'
    · subst hclose
      -- a bracket that closes finds one that is open
      cases depth with
      | zero => exact absurd h (not_closes_zero_close name)
      | succ inner =>
        rw [untilClosed_close, ih (closes_close_iff.1 h)]
        rfl
    by_cases hopen : c = '['
    · subst hopen
      rw [untilClosed_open, ih (closes_open_iff.1 h)]
      rfl
    · rw [untilClosed_other depth hclose hopen, ih ((closes_other_iff hclose hopen).1 h)]
      rfl

/-- Wherever the scan stops, it has passed a text that closes all that was open. -/
theorem exists_of_untilClosed {depth : Nat} {cs name : List Char}
    (h : untilClosed depth cs = some name) :
    Closes depth name ∧ ∃ after, cs = name ++ ']' :: after := by
  induction cs generalizing depth name with
  | nil => simp [untilClosed] at h
  | cons c cs ih =>
    by_cases hclose : c = ']'
    · subst hclose
      cases depth with
      | zero =>
        obtain rfl : [] = name := Option.some.inj h
        exact ⟨closes_nil_iff.2 rfl, cs, rfl⟩
      | succ inner =>
        rw [untilClosed_close, Option.map_eq_some_iff] at h
        obtain ⟨rest, hscan, rfl⟩ := h
        obtain ⟨hrest, after, rfl⟩ := ih hscan
        exact ⟨closes_close_iff.2 hrest, after, rfl⟩
    by_cases hopen : c = '['
    · subst hopen
      rw [untilClosed_open, Option.map_eq_some_iff] at h
      obtain ⟨rest, hscan, rfl⟩ := h
      obtain ⟨hrest, after, rfl⟩ := ih hscan
      exact ⟨closes_open_iff.2 hrest, after, rfl⟩
    · rw [untilClosed_other depth hclose hopen, Option.map_eq_some_iff] at h
      obtain ⟨rest, hscan, rfl⟩ := h
      obtain ⟨hrest, after, rfl⟩ := ih hscan
      exact ⟨(closes_other_iff hclose hopen).2 hrest, after, rfl⟩

/-- A balanced name is found in its brackets. -/
theorem inBrackets?_of_isBalanced {name : List Char} (h : IsBalanced name) :
    inBrackets? ('[' :: (name ++ [']'])) = some name := by
  unfold inBrackets?
  exact untilClosed_append (closes_zero_iff.2 h) []

/-! ## Tokens taken apart -/

/-- The token is the name in brackets with texts around them: no bracket opens before them, and
    those inside are balanced. -/
structure IsBracketed (token before name after : String) : Prop where
  eq : token = before ++ "[" ++ name ++ "]" ++ after
  not_mem : '[' ∉ before.toList
  isBalanced : IsBalanced name.toList

theorem IsBracketed.toList_eq {token before name after : String}
    (h : IsBracketed token before name after) :
    token.toList = before.toList ++ '[' :: (name.toList ++ ']' :: after.toList) := by
  rw [h.eq]
  simp [String.toList_append]

/-- The brackets are found behind a text in which none opens. -/
theorem inBrackets?_append {before : List Char} (h : '[' ∉ before) (rest : List Char) :
    inBrackets? (before ++ '[' :: rest) = untilClosed 0 rest := by
  have hbefore : ∀ c ∈ before, (c != '[') = true := by
    intro c hc
    rw [bne_iff_ne]
    rintro rfl
    exact h hc
  unfold inBrackets?
  rw [List.dropWhile_append_of_pos hbefore, List.dropWhile_cons_of_neg (by decide)]

theorem IsBracketed.parse?_eq {token before name after : String}
    (h : IsBracketed token before name after) : parse? token = some name := by
  unfold parse?
  rw [h.toList_eq, inBrackets?_append h.not_mem,
    untilClosed_append (closes_zero_iff.2 h.isBalanced), Option.map_some, String.ofList_toList]

/-- Whatever name is read, the token can be taken apart at it. -/
theorem exists_isBracketed {token name : String} (h : parse? token = some name) :
    ∃ before after, IsBracketed token before name after := by
  unfold parse? at h
  obtain ⟨chars, hchars, rfl⟩ := Option.map_eq_some_iff.1 h
  unfold inBrackets? at hchars
  split at hchars
  · simp at hchars
  · next c rest hdrop =>
    -- the scan begins at the first bracket
    have hopen : c = '[' := by
      have hhead := List.head?_dropWhile_not (· != '[') token.toList
      rw [hdrop] at hhead
      simpa using hhead
    have hbefore : '[' ∉ token.toList.takeWhile (· != '[') := by
      intro hmem
      simpa using List.mem_takeWhile_imp hmem
    obtain ⟨hcloses, after, hrest⟩ := exists_of_untilClosed hchars
    refine ⟨String.ofList (token.toList.takeWhile (· != '[')), String.ofList after, ?_, ?_, ?_⟩
    · rw [← String.toList_inj]
      conv_lhs => rw [← List.takeWhile_append_dropWhile (p := (· != '[')) (l := token.toList),
        hdrop, hrest, hopen]
      simp [String.toList_append]
    · rwa [String.toList_ofList]
    · rw [String.toList_ofList]
      exact closes_zero_iff.1 hcloses

/-- A token can be taken apart in one way at most. -/
theorem IsBracketed.unique {token before name after before' name' after' : String}
    (h : IsBracketed token before name after) (h' : IsBracketed token before' name' after') :
    before = before' ∧ name = name' ∧ after = after' := by
  obtain rfl : name = name' := Option.some.inj (h.parse?_eq.symm.trans h'.parse?_eq)
  have hlists := h.toList_eq.symm.trans h'.toList_eq
  have hbefore : before.toList = before'.toList := by
    have htake : ∀ {text : String}, '[' ∉ text.toList → ∀ rest : List Char,
        (text.toList ++ '[' :: rest).takeWhile (· != '[') = text.toList := by
      intro text htext rest
      rw [List.takeWhile_append_of_pos]
      · simp
      · intro c hc
        rw [bne_iff_ne]
        rintro rfl
        exact htext hc
    rw [← htake h.not_mem (name.toList ++ ']' :: after.toList), hlists, htake h'.not_mem]
  rw [hbefore] at hlists
  have hafter : after.toList = after'.toList := by simpa using hlists
  exact ⟨String.toList_inj.1 hbefore, rfl, String.toList_inj.1 hafter⟩

/-- The name of a header is what stands in the first brackets that are balanced inside: the name is
    read if and only if the token can be taken apart at it, which it can in one way at most, and no
    name is read if and only if it cannot. -/
theorem parse?_brackets (token : String) :
    (∀ name, parse? token = some name ↔ ∃ before after, IsBracketed token before name after) ∧
    (∀ before name after before' name' after', IsBracketed token before name after →
      IsBracketed token before' name' after' → before = before' ∧ name = name' ∧ after = after') ∧
    (parse? token = none ↔ ¬ ∃ before name after, IsBracketed token before name after) := by
  have hiff : ∀ name, parse? token = some name ↔
      ∃ before after, IsBracketed token before name after :=
    fun name => ⟨exists_isBracketed, fun ⟨_, _, h⟩ => h.parse?_eq⟩
  refine ⟨hiff, fun _ _ _ _ _ _ h h' => h.unique h', ?_⟩
  rw [Option.eq_none_iff_forall_ne_some]
  constructor
  · rintro hnone ⟨before, name, after, h⟩
    exact hnone name h.parse?_eq
  · intro hnot name hname
    obtain ⟨before, after, h⟩ := exists_isBracketed hname
    exact hnot ⟨before, name, after, h⟩

end Scaffold.SectionName
