import Scaffold.CommandLine.Tokenizer
import Scaffold.Proofs.CommandLine.Ranked
import Scaffold.Proofs.Text.Splitting

set_option autoImplicit false

/-! # Configured tokenizers

A tokenizer is made by setting prefixes and delimiters and by registering options, so its three
lists are ranked and nothing in them is empty. What it makes of an argument depends on whether a
prefix begins it (`itemsAfter_some_of_plain`, `itemsAfter_of_complete`). -/

namespace Scaffold

namespace Tokenizer

open Ranked

variable {t : Tokenizer}

/-! ## Configuration -/

/-- The tokenizers that can be made. -/
inductive IsConfigured : Tokenizer → Prop
  | default : IsConfigured default
  | withPrefixes {t : Tokenizer} (h : IsConfigured t) (prefixes : List String) :
      IsConfigured (t.withPrefixes prefixes)
  | withDelimiters {t : Tokenizer} (h : IsConfigured t) (delimiters : List String) :
      IsConfigured (t.withDelimiters delimiters)
  | register {t : Tokenizer} (h : IsConfigured t) (name : String) : IsConfigured (t.register name)
  | unregister {t : Tokenizer} (h : IsConfigured t) (name : String) :
      IsConfigured (t.unregister name)

theorem isConfigured_ofValueOptions (names : List String) :
    IsConfigured (ofValueOptions names) := by
  unfold ofValueOptions
  induction names using List.reverseRecOn with
  | nil => exact .default
  | append_singleton names name ih =>
    rw [List.foldl_append]
    exact ih.register name

/-- The lists are ranked, no prefix or delimiter is empty, and no option has a blank name. -/
structure WellFormed (t : Tokenizer) : Prop where
  valueOptions : IsRanked t.valueOptions
  prefixes : IsRanked t.prefixes
  delimiters : IsRanked t.delimiters
  name_ne : ∀ name ∈ t.valueOptions, Text.trim name ≠ ""
  prefix_ne : ∀ mark ∈ t.prefixes, mark ≠ ""
  delimiter_ne : ∀ delimiter ∈ t.delimiters, delimiter ≠ ""

theorem wellFormed_default : WellFormed default where
  valueOptions := List.Pairwise.nil
  prefixes := isRanked_ofList _
  delimiters := isRanked_ofList _
  name_ne := by simp [default]
  prefix_ne _ hmark := (mem_ofList.1 hmark).1
  delimiter_ne _ hdelimiter := (mem_ofList.1 hdelimiter).1

theorem WellFormed.register (h : t.WellFormed) (name : String) : (t.register name).WellFormed := by
  unfold Tokenizer.register
  rw [Text.nonBlank?_eq]
  by_cases hblank : Text.trim name = ""
  · rwa [if_pos hblank]
  · rw [if_neg hblank]
    refine { h with valueOptions := isRanked_add name h.valueOptions, name_ne := ?_ }
    intro other hother
    rcases mem_add.1 hother with rfl | hother
    · exact hblank
    · exact h.name_ne other hother

theorem WellFormed.unregister (h : t.WellFormed) (name : String) :
    (t.unregister name).WellFormed where
  valueOptions := List.Pairwise.filter _ h.valueOptions
  prefixes := h.prefixes
  delimiters := h.delimiters
  name_ne other hother := h.name_ne other (List.mem_of_mem_filter hother)
  prefix_ne := h.prefix_ne
  delimiter_ne := h.delimiter_ne

theorem IsConfigured.wellFormed (h : t.IsConfigured) : t.WellFormed := by
  induction h with
  | default => exact wellFormed_default
  | withPrefixes h prefixes ih =>
    exact { ih with
      prefixes := isRanked_ofList prefixes
      prefix_ne := fun mark hmark => (mem_ofList.1 hmark).1 }
  | withDelimiters h delimiters ih =>
    exact { ih with
      delimiters := isRanked_ofList delimiters
      delimiter_ne := fun delimiter hdelimiter => (mem_ofList.1 hdelimiter).1 }
  | register h name ih => exact ih.register name
  | unregister h name ih => exact ih.unregister name

/-! ## One argument -/

/-- No prefix begins the argument. -/
def IsPlain (t : Tokenizer) (arg : String) : Prop :=
  ∀ mark ∈ t.prefixes, ¬ mark.toList <+: arg.toList

instance (t : Tokenizer) (arg : String) : Decidable (t.IsPlain arg) :=
  inferInstanceAs (Decidable (∀ mark ∈ t.prefixes, _))

theorem itemsAfter_none_of_plain {arg : String} (h : t.IsPlain arg) (args : List String) :
    t.itemsAfter none (arg :: args) = .positional arg :: t.itemsAfter none args := by
  rw [itemsAfter.eq_def]
  simp only [dropFirst?_eq_none_iff.2 h]

/-- A plain argument is the value that is waited for. -/
theorem itemsAfter_some_of_plain {arg : String} (h : t.IsPlain arg) (name : String)
    (args : List String) :
    t.itemsAfter (some name) (arg :: args) = .option name (some arg) :: t.itemsAfter none args := by
  rw [itemsAfter.eq_def]
  simp only [dropFirst?_eq_none_iff.2 h]

/-- Behind a prefix no value is waited for any more. -/
theorem itemsAfter_of_complete {arg mark : String} {rest : List Char} {item : Item}
    (h : dropFirst? t.prefixes arg.toList = some (mark, rest))
    (hmarked : t.marked arg rest = .complete item) (waiting : Option String) (args : List String) :
    t.itemsAfter waiting (arg :: args) = unanswered waiting ++ item :: t.itemsAfter none args := by
  rw [itemsAfter.eq_def]
  simp only [h, hmarked]

theorem itemsAfter_of_waiting {arg mark name : String} {rest : List Char}
    (h : dropFirst? t.prefixes arg.toList = some (mark, rest))
    (hmarked : t.marked arg rest = .waiting name) (waiting : Option String) (args : List String) :
    t.itemsAfter waiting (arg :: args) = unanswered waiting ++ t.itemsAfter (some name) args := by
  rw [itemsAfter.eq_def]
  simp only [h, hmarked]

/-- What stands behind the prefix is not blank if a name that is not blank begins it. -/
theorem all_isBlank_eq_false {name : String} {rest : List Char} (hname : Text.trim name ≠ "")
    (hbegins : name.toList <+: rest) : rest.all Text.isBlank = false := by
  rw [← Bool.not_eq_true, List.all_eq_true]
  intro hblank
  apply hname
  rw [Text.trim_eq_empty_iff]
  exact fun c hc => hblank c (hbegins.subset hc)

/-- An argument that is not blank behind its prefix and names no option that takes a value is a
    flag. -/
theorem marked_flag {name : String} (arg : String) (hname : Text.trim name ≠ "")
    (hfree : ∀ option ∈ t.valueOptions, ¬ option.toList <+: name.toList) :
    t.marked arg name.toList = .complete (.option name none) := by
  unfold marked
  rw [all_isBlank_eq_false hname List.prefix_rfl, if_neg Bool.false_ne_true,
    dropFirst?_eq_none_iff.2 hfree, String.ofList_toList]

/-- The name of an option alone waits for the option's value. -/
theorem marked_waiting (ht : t.WellFormed) {name : String} (arg : String)
    (hname : name ∈ t.valueOptions) : t.marked arg name.toList = .waiting name := by
  -- a longer name does not begin this one
  have hlongest : IsLongest t.valueOptions name.toList name := by
    refine ⟨hname, List.prefix_rfl, ?_⟩
    rintro other - ⟨more, hmore⟩
    have hsplit : name = other ++ String.ofList more := by
      rw [← String.toList_inj, String.toList_append, String.toList_ofList, hmore]
    rw [hsplit, String.utf8ByteSize_append]
    omega
  have hfirst : dropFirst? t.valueOptions name.toList = some (name, []) :=
    (dropFirst?_eq_some_iff ht.valueOptions).2 ⟨hlongest, (List.append_nil _).symm⟩
  unfold marked
  rw [all_isBlank_eq_false (ht.name_ne name hname) List.prefix_rfl, if_neg Bool.false_ne_true,
    hfirst]

/-- An option with its value behind a delimiter. -/
theorem marked_joined (ht : t.WellFormed) {name delimiter value : String} (arg : String)
    (hname : IsLongest t.valueOptions (name ++ delimiter ++ value).toList name)
    (hdelimiter : IsLongest t.delimiters (delimiter ++ value).toList delimiter) :
    t.marked arg (name ++ delimiter ++ value).toList = .complete (.option name (some value)) := by
  have hfirst : dropFirst? t.valueOptions (name ++ delimiter ++ value).toList =
      some (name, (delimiter ++ value).toList) :=
    (dropFirst?_eq_some_iff ht.valueOptions).2 ⟨hname, by simp⟩
  have hvalue : t.attachedValue (delimiter ++ value).toList = value := by
    have hdrop : dropFirst? t.delimiters (delimiter ++ value).toList =
        some (delimiter, value.toList) :=
      (dropFirst?_eq_some_iff ht.delimiters).2 ⟨hdelimiter, by simp⟩
    unfold attachedValue
    rw [hdrop]
    exact String.ofList_toList
  have hne : (delimiter ++ value).toList ≠ [] := by
    have hdelimiter := ht.delimiter_ne delimiter hdelimiter.mem
    simp [hdelimiter]
  obtain ⟨c, cs, hrest⟩ := List.exists_cons_of_ne_nil hne
  unfold marked
  rw [all_isBlank_eq_false (ht.name_ne name hname.mem) hname.begins, if_neg Bool.false_ne_true,
    hfirst]
  rw [hrest] at hvalue ⊢
  rw [← hvalue]

/-- What an argument behind its prefix can mean: nothing, a flag, or an option that takes a
    value. -/
theorem marked_cases (ht : t.WellFormed) (arg : String) (rest : List Char) :
    (rest.all Text.isBlank = true ∧ t.marked arg rest = .complete (.positional arg)) ∨
      ((∀ option ∈ t.valueOptions, ¬ option.toList <+: rest) ∧
        t.marked arg rest = .complete (.option (String.ofList rest) none)) ∨
      ∃ name ∈ t.valueOptions, name.toList <+: rest ∧
        (t.marked arg rest = .waiting name ∨
          ∃ value, t.marked arg rest = .complete (.option name (some value))) := by
  unfold marked
  by_cases hblank : rest.all Text.isBlank = true
  · exact Or.inl ⟨hblank, if_pos hblank⟩
  rw [if_neg hblank]
  right
  cases hfirst : dropFirst? t.valueOptions rest with
  | none => exact Or.inl ⟨dropFirst?_eq_none_iff.1 hfirst, rfl⟩
  | some found =>
    obtain ⟨name, behind⟩ := found
    have hlongest := (isLongest_of_dropFirst? ht.valueOptions hfirst).1
    refine Or.inr ⟨name, hlongest.mem, hlongest.begins, ?_⟩
    cases behind with
    | nil => exact Or.inl rfl
    | cons c cs => exact Or.inr ⟨_, rfl⟩

/-! ## Flags -/

/-- A name that no option with a value begins comes up exactly where it stands behind a prefix,
    whatever stands around it. -/
theorem option_mem_itemsAfter_iff (ht : t.WellFormed) {name : String} (hname : Text.trim name ≠ "")
    (hfree : ∀ option ∈ t.valueOptions, ¬ option.toList <+: name.toList) (args : List String)
    {waiting : Option String} (hwaiting : ∀ other ∈ waiting, other ∈ t.valueOptions) :
    (∃ value, .option name value ∈ t.itemsAfter waiting args) ↔
      ∃ arg ∈ args, ∃ mark, dropFirst? t.prefixes arg.toList = some (mark, name.toList) := by
  have hother : ∀ other ∈ t.valueOptions, ∀ value value',
      Item.option name value ≠ .option other value' := by
    intro other hmem value value' heq
    obtain ⟨rfl, -⟩ := Item.option.inj heq
    exact hfree name hmem List.prefix_rfl
  have hnever : ∀ waiting : Option String, (∀ other ∈ waiting, other ∈ t.valueOptions) →
      ∀ value, .option name value ∉ unanswered waiting := by
    intro waiting hwaiting value
    cases waiting with
    | none => exact List.not_mem_nil
    | some other =>
      rw [unanswered, List.mem_singleton]
      exact hother other (hwaiting other rfl) value none
  induction args generalizing waiting with
  | nil =>
    show (∃ value, .option name value ∈ unanswered waiting) ↔ _
    simp [hnever waiting hwaiting]
  | cons arg args ih =>
    have hunanswered := hnever waiting hwaiting
    have hnone := @ih none (by simp)
    rw [List.exists_mem_cons_iff]
    cases hfirst : dropFirst? t.prefixes arg.toList with
    | none =>
      have hplain : t.IsPlain arg := dropFirst?_eq_none_iff.1 hfirst
      cases waiting with
      | none =>
        rw [itemsAfter_none_of_plain hplain]
        simp [hnone]
      | some other =>
        have hne := hother other (hwaiting other rfl)
        rw [itemsAfter_some_of_plain hplain]
        simp [hnone, hne]
    | some found =>
      obtain ⟨mark, rest⟩ := found
      rcases marked_cases ht arg rest with ⟨hblank, hmarked⟩ | ⟨-, hmarked⟩ |
        ⟨other, hmem, hbegins, hmarked | ⟨given, hmarked⟩⟩
      · -- a prefix alone is no flag, since the name is not blank
        have hne : rest ≠ name.toList := by
          rintro rfl
          rw [all_isBlank_eq_false hname List.prefix_rfl] at hblank
          exact Bool.false_ne_true hblank
        rw [itemsAfter_of_complete hfirst hmarked]
        simp [hunanswered, hnone, hne]
      · rw [itemsAfter_of_complete hfirst hmarked]
        have hsame : name = String.ofList rest ↔ rest = name.toList := by
          rw [← String.toList_inj, String.toList_ofList, eq_comm]
        simp [hunanswered, hnone, hsame, exists_or]
      · have hne : rest ≠ name.toList := by
          rintro rfl
          exact hfree other hmem hbegins
        have hsome := @ih (some other) (by simp [hmem])
        rw [itemsAfter_of_waiting hfirst hmarked]
        simp [hunanswered, hsome, hne]
      · have hne : rest ≠ name.toList := by
          rintro rfl
          exact hfree other hmem hbegins
        rw [itemsAfter_of_complete hfirst hmarked]
        simp [hunanswered, hnone, hne, hother other hmem]

end Tokenizer

end Scaffold
