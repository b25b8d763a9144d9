import Scaffold.Proofs.CommandLine.Tokenizer

set_option autoImplicit false

/-! # The order of configuration

Which of some ranked texts is found depends on which texts there are and not on the order in which
they were added: it is the longest that begins a text, and no two texts of one length begin the same
text. So a tokenizer does not show how it came by its options, prefixes and delimiters
(`items_congr`). -/

namespace Scaffold

namespace Ranked

variable {texts texts' : List String} {text : List Char}

/-- Of the texts, the one that is found is the only longest one that begins a text, and nothing is
    found only where none begins it. -/
def FindsLongest (texts : List String) : Prop :=
  ∀ text, (∀ t rest, dropFirst? texts text = some (t, rest) →
      text = t.toList ++ rest ∧ ∀ other, IsLongest texts text other ↔ other = t) ∧
    (dropFirst? texts text = none → ∀ t ∈ texts, ¬ t.toList <+: text)

theorem findsLongest (h : IsRanked texts) : FindsLongest texts := by
  refine fun text => ⟨fun t rest hfirst => ?_, dropFirst?_eq_none_iff.1⟩
  obtain ⟨hlongest, htext⟩ := isLongest_of_dropFirst? h hfirst
  refine ⟨htext, fun other => ⟨fun hother => hother.unique hlongest, ?_⟩⟩
  rintro rfl
  exact hlongest

theorem IsLongest.of_subset {t : String} (h : IsLongest texts text t) (hmem : t ∈ texts')
    (hsubset : texts' ⊆ texts) : IsLongest texts' text t :=
  ⟨hmem, h.begins, fun other hother => h.longest other (hsubset hother)⟩

theorem isLongest_congr (h : ∀ s, s ∈ texts' ↔ s ∈ texts) {t : String} :
    IsLongest texts' text t ↔ IsLongest texts text t :=
  ⟨fun hlongest => hlongest.of_subset ((h t).1 hlongest.mem) fun s => (h s).2,
    fun hlongest => hlongest.of_subset ((h t).2 hlongest.mem) fun s => (h s).1⟩

/-- However the same texts were ranked, the same is found. -/
theorem dropFirst?_congr (htexts : IsRanked texts) (htexts' : IsRanked texts')
    (h : ∀ s, s ∈ texts' ↔ s ∈ texts) (text : List Char) :
    dropFirst? texts' text = dropFirst? texts text := by
  refine Option.ext fun ⟨t, rest⟩ => ?_
  rw [dropFirst?_eq_some_iff htexts, dropFirst?_eq_some_iff htexts', isLongest_congr h]

end Ranked

namespace Tokenizer

open Ranked

variable {t u : Tokenizer}

/-- The tokenizers have the same options, prefixes and delimiters, in whatever order. -/
structure SameMembers (t u : Tokenizer) : Prop where
  valueOptions : ∀ name, name ∈ u.valueOptions ↔ name ∈ t.valueOptions
  prefixes : ∀ mark, mark ∈ u.prefixes ↔ mark ∈ t.prefixes
  delimiters : ∀ delimiter, delimiter ∈ u.delimiters ↔ delimiter ∈ t.delimiters

theorem attachedValue_congr (ht : t.WellFormed) (hu : u.WellFormed) (h : t.SameMembers u)
    (rest : List Char) : u.attachedValue rest = t.attachedValue rest := by
  unfold attachedValue
  rw [dropFirst?_congr ht.delimiters hu.delimiters h.delimiters]

theorem marked_congr (ht : t.WellFormed) (hu : u.WellFormed) (h : t.SameMembers u) (arg : String)
    (rest : List Char) : u.marked arg rest = t.marked arg rest := by
  unfold marked
  simp only [dropFirst?_congr ht.valueOptions hu.valueOptions h.valueOptions,
    attachedValue_congr ht hu h]

theorem itemsAfter_congr (ht : t.WellFormed) (hu : u.WellFormed) (h : t.SameMembers u)
    (waiting : Option String) (args : List String) :
    u.itemsAfter waiting args = t.itemsAfter waiting args := by
  induction args generalizing waiting with
  | nil => rfl
  | cons arg args ih =>
    rw [itemsAfter.eq_def, itemsAfter.eq_def t]
    simp only [dropFirst?_congr ht.prefixes hu.prefixes h.prefixes, marked_congr ht hu h, ih]

/-- Tokenizers with the same options, prefixes and delimiters read every command line alike, however
    they were configured, and what they match is always the one longest candidate. -/
theorem items_congr (ht : t.IsConfigured) (hu : u.IsConfigured) (h : t.SameMembers u) :
    (∀ args, u.items args = t.items args) ∧
      ∀ texts ∈ [t.prefixes, t.valueOptions, t.delimiters], FindsLongest texts := by
  refine ⟨itemsAfter_congr ht.wellFormed hu.wellFormed h none, fun texts htexts => ?_⟩
  simp only [List.mem_cons, List.not_mem_nil, or_false] at htexts
  rcases htexts with rfl | rfl | rfl
  · exact findsLongest ht.wellFormed.prefixes
  · exact findsLongest ht.wellFormed.valueOptions
  · exact findsLongest ht.wellFormed.delimiters

/-! ## The same members in another order -/

/-- A tokenizer that was configured in one go. -/
def sortedTokenizer : Tokenizer :=
  (ofValueOptions ["ab", "cd", "a"]).withPrefixes ["-", "+"]

/-- A tokenizer with the same options and prefixes, the other way round. -/
def shuffledTokenizer : Tokenizer :=
  ((((ofValueOptions ["a", "x", "ab"]).withPrefixes ["+", "", "-"]).unregister "ab").register
    "cd").register "ab" |>.unregister "x"

theorem sortedTokenizer_isConfigured : sortedTokenizer.IsConfigured :=
  (isConfigured_ofValueOptions _).withPrefixes _

theorem shuffledTokenizer_isConfigured : shuffledTokenizer.IsConfigured :=
  (((((isConfigured_ofValueOptions _).withPrefixes _).unregister _).register _).register
    _).unregister _

theorem sortedTokenizer_sameMembers : sortedTokenizer.SameMembers shuffledTokenizer := by
  have hvalueOptions : shuffledTokenizer.valueOptions = ["cd", "ab", "a"] := by decide
  have hprefixes : shuffledTokenizer.prefixes = ["+", "-"] := by decide
  have hvalueOptions' : sortedTokenizer.valueOptions = ["ab", "cd", "a"] := by decide
  have hprefixes' : sortedTokenizer.prefixes = ["-", "+"] := by decide
  refine ⟨fun name => ?_, fun mark => ?_, fun _ => Iff.rfl⟩
  · rw [hvalueOptions, hvalueOptions']
    simp [or_left_comm]
  · rw [hprefixes, hprefixes']
    simp [or_comm]

theorem items_congr_shuffled : sortedTokenizer.IsConfigured ∧ shuffledTokenizer.IsConfigured ∧
    sortedTokenizer.SameMembers shuffledTokenizer ∧ shuffledTokenizer ≠ sortedTokenizer ∧
    shuffledTokenizer.items ["-ab=1", "+cd", "x", "-abc"] =
      [.option "ab" (some "1"), .option "cd" (some "x"), .option "ab" (some "c")] := by
  refine ⟨sortedTokenizer_isConfigured, shuffledTokenizer_isConfigured,
    sortedTokenizer_sameMembers, by decide, ?_⟩
  rw [(items_congr sortedTokenizer_isConfigured shuffledTokenizer_isConfigured
    sortedTokenizer_sameMembers).1]
  rfl

end Tokenizer

end Scaffold
