import Scaffold.Proofs.CommandLine.Ranking
import Scaffold.Proofs.CommandLine.Tokenizer

set_option autoImplicit false

/-! # What a tokenizer has been told

A tokenizer is configured by a sequence of changes. What it has been told in the end is read off the
changes without its lists: its prefixes, delimiters and options in the order in which they became
members, each once. Its lists are the rankings of these members after every change
(`configured_isRankingOf`), whether they were set in one go or came one by one. -/

namespace Scaffold

namespace Tokenizer

open Ranked

/-! ## Changes -/

/-- One step of configuration. -/
inductive Change
  /-- A new tokenizer that knows these options. -/
  | create (names : List String)
  | prefixes (marks : List String)
  | delimiters (texts : List String)
  | register (name : String)
  | unregister (name : String)

/-- The tokenizer after a change. -/
def apply (t : Tokenizer) : Change → Tokenizer
  | .create names => ofValueOptions names
  | .prefixes marks => t.withPrefixes marks
  | .delimiters texts => t.withDelimiters texts
  | .register name => t.register name
  | .unregister name => t.unregister name

/-- The tokenizer after a sequence of changes. -/
def configured (changes : List Change) : Tokenizer :=
  changes.foldl apply default

/-! ## Members -/

/-- The texts that are not empty, each where it comes first. -/
def distinct (texts : List String) : List String :=
  (texts.filter (· != "")).foldl join []

/-- The options after one more was registered. -/
def joinOption (members : List String) (name : String) : List String :=
  if Text.trim name = "" then members else join members name

/-- The members that a tokenizer has been given, in the order in which they joined. -/
structure Members where
  valueOptions : List String
  prefixes : List String
  delimiters : List String

/-- The members of a new tokenizer. -/
def Members.created (names : List String) : Members where
  valueOptions := names.foldl joinOption []
  prefixes := distinct ["-", "--", "/"]
  delimiters := distinct ["=", ":"]

/-- The members after a change. -/
def Members.after (m : Members) : Change → Members
  | .create names => .created names
  | .prefixes marks => { m with prefixes := distinct marks }
  | .delimiters texts => { m with delimiters := distinct texts }
  | .register name => { m with valueOptions := joinOption m.valueOptions name }
  | .unregister name => { m with valueOptions := m.valueOptions.filter (· != name) }

/-- The members after a sequence of changes. -/
def members (changes : List Change) : Members :=
  changes.foldl .after (.created [])

/-- The tokenizer whose lists a stable sort makes of the members. -/
def Members.sorted (m : Members) : Tokenizer where
  valueOptions := m.valueOptions.mergeSort ranksBefore
  prefixes := m.prefixes.mergeSort ranksBefore
  delimiters := m.delimiters.mergeSort ranksBefore

/-- The change makes an option known. -/
def Change.Registers (name : String) : Change → Prop
  | .create names => name ∈ names
  | .register other => other = name
  | _ => False

/-- The change makes a tokenizer that need not know an option any more. -/
def Change.Forgets (name : String) : Change → Prop
  | .create _ => True
  | .unregister other => other = name
  | _ => False

/-- The option has a name that is not blank, and it was registered and not forgotten since. -/
def IsRegistered (changes : List Change) (name : String) : Prop :=
  Text.trim name ≠ "" ∧ ∃ before change after, changes = before ++ change :: after ∧
    change.Registers name ∧ ∀ later ∈ after, ¬ later.Forgets name

/-- The lists of the tokenizer are the rankings of the members. -/
structure Ranks (t : Tokenizer) (m : Members) : Prop where
  valueOptions : IsRankingOf t.valueOptions m.valueOptions
  prefixes : IsRankingOf t.prefixes m.prefixes
  delimiters : IsRankingOf t.delimiters m.delimiters

variable {t : Tokenizer} {m : Members} {changes : List Change} {name : String}

/-! ## Rankings after each change -/

theorem register_of_blank (h : Text.trim name = "") : t.register name = t := by
  unfold register
  rw [Text.nonBlank?_eq, if_pos h]

theorem register_of_ne (h : Text.trim name ≠ "") :
    t.register name = { t with valueOptions := Ranked.add t.valueOptions name } := by
  unfold register
  rw [Text.nonBlank?_eq, if_neg h]

theorem Ranks.register (h : t.Ranks m) (name : String) :
    (t.register name).Ranks { m with valueOptions := joinOption m.valueOptions name } := by
  unfold joinOption
  by_cases hblank : Text.trim name = ""
  · rw [register_of_blank hblank, if_pos hblank]
    exact h
  · rw [register_of_ne hblank, if_neg hblank]
    exact { h with valueOptions := h.valueOptions.add name }

theorem ranks_created (names : List String) : (ofValueOptions names).Ranks (.created names) := by
  have hfold : ∀ (names : List String) (t : Tokenizer) (m : Members), t.Ranks m →
      (names.foldl Tokenizer.register t).Ranks
        { m with valueOptions := names.foldl joinOption m.valueOptions } := by
    intro names
    induction names with
    | nil => exact fun _ _ h => h
    | cons name names ih => exact fun t m h => ih _ _ (h.register name)
  have hdefault : default.Ranks (.created []) :=
    ⟨isRankingOf_nil, isRankingOf_ofList _, isRankingOf_ofList _⟩
  exact hfold names default (.created []) hdefault

theorem Ranks.apply (h : t.Ranks m) (change : Change) : (t.apply change).Ranks (m.after change) := by
  cases change with
  | create names => exact ranks_created names
  | prefixes marks => exact { h with prefixes := isRankingOf_ofList marks }
  | delimiters texts => exact { h with delimiters := isRankingOf_ofList texts }
  | register name => exact h.register name
  | unregister name => exact { h with valueOptions := h.valueOptions.filter _ }

theorem configured_append_singleton (changes : List Change) (change : Change) :
    configured (changes ++ [change]) = (configured changes).apply change := by
  unfold configured
  rw [List.foldl_append]
  rfl

theorem members_append_singleton (changes : List Change) (change : Change) :
    members (changes ++ [change]) = (members changes).after change := by
  unfold members
  rw [List.foldl_append]
  rfl

theorem ranks_configured (changes : List Change) : (configured changes).Ranks (members changes) := by
  induction changes using List.reverseRecOn with
  | nil => exact ranks_created []
  | append_singleton changes change ih =>
    rw [configured_append_singleton, members_append_singleton]
    exact ih.apply change

theorem isConfigured_configured (changes : List Change) : (configured changes).IsConfigured := by
  induction changes using List.reverseRecOn with
  | nil => exact .default
  | append_singleton changes change ih =>
    rw [configured_append_singleton]
    cases change with
    | create names => exact isConfigured_ofValueOptions names
    | prefixes marks => exact ih.withPrefixes marks
    | delimiters texts => exact ih.withDelimiters texts
    | register name => exact ih.register name
    | unregister name => exact ih.unregister name

theorem Ranks.eq_sorted (h : t.Ranks m) : t = m.sorted := by
  have hvalueOptions := h.valueOptions.eq_mergeSort
  have hprefixes := h.prefixes.eq_mergeSort
  have hdelimiters := h.delimiters.eq_mergeSort
  cases t
  simp only at hvalueOptions hprefixes hdelimiters
  rw [hvalueOptions, hprefixes, hdelimiters]
  rfl

/-! ## The options as a set -/

theorem joinOption_of_not_mem {options : List String} (hname : Text.trim name ≠ "")
    (h : name ∉ options) : joinOption options name = options ++ [name] := by
  unfold joinOption join
  rw [if_neg hname, if_neg h]

theorem mem_joinOption {options : List String} {other : String} :
    name ∈ joinOption options other ↔
      (Text.trim name ≠ "" ∧ other = name) ∨ name ∈ options := by
  unfold joinOption join
  by_cases hother : other = name
  · subst hother
    split_ifs with hblank hmem
    · simp [hblank]
    · simp [hmem]
    · simp [hblank]
  · have hother' : ¬ name = other := fun h => hother h.symm
    split_ifs <;> simp [hother, hother']

theorem mem_created {names : List String} :
    name ∈ (Members.created names).valueOptions ↔ Text.trim name ≠ "" ∧ name ∈ names := by
  unfold Members.created
  dsimp only
  induction names using List.reverseRecOn with
  | nil => simp
  | append_singleton names other ih =>
    rw [List.foldl_append, List.foldl_cons, List.foldl_nil, mem_joinOption, ih, List.mem_append,
      List.mem_singleton, and_or_left, or_comm, eq_comm]

/-- An option is a member after a change that makes it known, and after one that does not forget it
    if it was a member before. -/
theorem mem_after {change : Change} :
    name ∈ (m.after change).valueOptions ↔ (Text.trim name ≠ "" ∧ change.Registers name) ∨
      (name ∈ m.valueOptions ∧ ¬ change.Forgets name) := by
  cases change with
  | create names => simp [Members.after, mem_created, Change.Registers, Change.Forgets]
  | prefixes marks => simp [Members.after, Change.Registers, Change.Forgets]
  | delimiters texts => simp [Members.after, Change.Registers, Change.Forgets]
  | register other => simp [Members.after, mem_joinOption, Change.Registers, Change.Forgets]
  | unregister other =>
    have hother : ¬ other = name ↔ name ≠ other := ne_comm
    simp [Members.after, Change.Registers, Change.Forgets, hother]

theorem isRegistered_append_singleton {change : Change} :
    IsRegistered (changes ++ [change]) name ↔ (Text.trim name ≠ "" ∧ change.Registers name) ∨
      (IsRegistered changes name ∧ ¬ change.Forgets name) := by
  constructor
  · rintro ⟨hname, before, made, after, hchanges, hregisters, hkept⟩
    rcases List.eq_nil_or_concat after with rfl | ⟨after, last, rfl⟩
    · obtain ⟨-, hmade⟩ := List.append_inj' hchanges rfl
      obtain rfl := List.singleton_inj.1 hmade
      exact Or.inl ⟨hname, hregisters⟩
    · rw [List.concat_eq_append, ← List.cons_append, ← List.append_assoc] at hchanges
      obtain ⟨hbefore, hlast⟩ := List.append_inj' hchanges rfl
      obtain rfl := List.singleton_inj.1 hlast
      refine Or.inr ⟨⟨hname, before, made, after, hbefore, hregisters, ?_⟩, hkept _ (by simp)⟩
      exact fun later hlater => hkept later (by simp [hlater])
  · rintro (⟨hname, hregisters⟩ | ⟨⟨hname, before, made, after, rfl, hregisters, hkept⟩, hlast⟩)
    · exact ⟨hname, changes, change, [], rfl, hregisters, by simp⟩
    · refine ⟨hname, before, made, after ++ [change], by simp, hregisters, ?_⟩
      intro later hlater
      rcases List.mem_append.1 hlater with hlater | hlater
      · exact hkept later hlater
      · rwa [List.mem_singleton.1 hlater]

theorem mem_members_iff : name ∈ (members changes).valueOptions ↔ IsRegistered changes name := by
  induction changes using List.reverseRecOn with
  | nil => simp [members, Members.created, IsRegistered]
  | append_singleton changes change ih =>
    rw [members_append_singleton, mem_after, isRegistered_append_singleton, ih]

/-! ## Configured tokenizers -/

theorem register_of_mem (h : name ∈ t.valueOptions) : t.register name = t := by
  by_cases hblank : Text.trim name = ""
  · exact register_of_blank hblank
  · rw [register_of_ne hblank, Ranked.add, if_pos (List.contains_iff_mem.2 h)]

/-- An option that comes back goes behind the others of its length. -/
theorem ofSize_register_unregister (h : t.Ranks m) (hname : Text.trim name ≠ "") :
    ofSize name.utf8ByteSize ((t.unregister name).register name).valueOptions =
      (ofSize name.utf8ByteSize t.valueOptions).filter (· != name) ++ [name] := by
  have hback := (h.apply (.unregister name)).apply (.register name)
  have hnone : name ∉ m.valueOptions.filter (· != name) := by simp
  have hmembers : ((m.after (.unregister name)).after (.register name)).valueOptions =
      m.valueOptions.filter (· != name) ++ [name] :=
    joinOption_of_not_mem hname hnone
  refine (hback.valueOptions.order name.utf8ByteSize).trans ?_
  rw [hmembers, ofSize_append, ofSize_filter, h.valueOptions.order, ofSize_cons, if_pos rfl]
  rfl

/-- After every sequence of changes, so after every step of one, the lists of a tokenizer are the
    rankings of the members that it was given: each once, longer ones first, those of one length in
    the order in which they joined. That is what a stable sort makes of the members. No prefix or
    delimiter is empty, no option has a blank name, and the options are those that were registered
    and not forgotten since. Registering an option that is known changes nothing, and one that comes
    back is the last one of its length. -/
theorem configured_isRankingOf (changes : List Change) :
    (configured changes).Ranks (members changes) ∧
    configured changes = (members changes).sorted ∧
    (configured changes).WellFormed ∧
    (∀ name, name ∈ (configured changes).valueOptions ↔ IsRegistered changes name) ∧
    (∀ name ∈ (configured changes).valueOptions,
      (configured changes).register name = configured changes) ∧
    ∀ name, Text.trim name ≠ "" →
      ofSize name.utf8ByteSize
          (((configured changes).unregister name).register name).valueOptions =
        (ofSize name.utf8ByteSize (configured changes).valueOptions).filter (· != name) ++
          [name] := by
  have hranks := ranks_configured changes
  refine ⟨hranks, hranks.eq_sorted, (isConfigured_configured changes).wellFormed, fun name => ?_,
    fun name => register_of_mem, fun name => ofSize_register_unregister hranks⟩
  rw [hranks.valueOptions.mem_iff, mem_members_iff]

/-- Options come longest first, `cd` before `ab` because it was there when `ab` came back. -/
example : (configured [.create ["ab", "a", "cd"], .register "xyz", .register " ",
    .unregister "ab", .register "ab", .register "cd"]).valueOptions = ["xyz", "cd", "ab", "a"] := by
  decide

end Tokenizer

end Scaffold
