import Scaffold.CommandLine.Program
import Scaffold.Proofs.CommandLine.Tokenizer

set_option autoImplicit false

/-! # What the options of a command line come to

The options are taken one after the other. An option that takes a value ends up with the last value
that is not blank, given under any of its names (`value_takeAll`); a flag is set once one of its
names has come (`isSet_takeAll`). No flag can be taken for the value of another option, so whether
it is set can be told from the arguments one by one (`isSet_ofCommandLine`). -/

namespace Scaffold

namespace ArgumentOption

/-- No name belongs to two options. -/
theorem ofName?_eq_some_iff (name : String) (option : ArgumentOption) :
    ofName? name = some option ↔ name ∈ option.names := by
  have hdistinct : ∀ option ∈ flags ++ withValue, ∀ name ∈ option.names,
      ofName? name = some option := by
    decide
  constructor
  · intro h
    simpa using List.find?_some h
  · intro h
    by_cases hoption : option ∈ flags ++ withValue
    · exact hdistinct option hoption name h
    · -- only the program name is no option, and it has no names
      cases option with
      | field field => cases field <;> simp_all [flags, withValue, names]
      | _ => simp [flags, withValue] at hoption

end ArgumentOption

namespace Draft

theorem finalize_eq_ok_iff {d : Draft} {fs : FileSystem} {options : ProjectOptions}
    {roots : Roots} :
    d.finalize fs = .ok (options, roots) ↔
      d.problems fs = [] ∧ options = d.options ∧ roots = d.roots fs := by
  unfold finalize
  cases hproblems : d.problems fs with
  | nil => simp [eq_comm]
  | cons problem problems => simp

end Draft

namespace Arguments

/-- The value that an entry of the command line gives to an option, unless it is blank. -/
def valueFor? (option : ArgumentOption) : String × Option String → Option String
  | (name, some value) =>
    if name ∈ option.names ∧ Text.trim value ≠ "" then some value else none
  | (_, none) => none

/-- The values that the entries give to an option under any of its names, without blank ones. -/
def valuesFor (option : ArgumentOption) (entries : List (String × Option String)) : List String :=
  entries.filterMap (valueFor? option)

/-- The value that the arguments hold for an option. -/
def value (a : Arguments) : ArgumentOption → Option String
  | .field field => a.draft.get field
  | .config => a.config
  | .help | .verbose | .force => none

/-- Whether the arguments set a flag. -/
def isSet (a : Arguments) : ArgumentOption → Bool
  | .help => a.help
  | .verbose => a.verbose
  | .force => a.force
  | .field _ | .config => false

/-! ## Taking one option -/

theorem newer_eq (old : Option String) (value : String) :
    newer old (some value) = if Text.trim value = "" then old else some (Text.trim value) := by
  unfold newer
  rw [Option.bind_some, Text.nonBlank?_eq]
  split_ifs <;> rfl

theorem value_takeOption (a : Arguments) (name : String) (given : Option String)
    {option : ArgumentOption} (hoption : option ∉ ArgumentOption.flags) :
    (a.takeOption name given).value option =
      if name ∈ option.names then newer (a.value option) given else a.value option := by
  simp only [← ArgumentOption.ofName?_eq_some_iff]
  unfold takeOption
  rcases ArgumentOption.ofName? name with _ | (field | _ | _ | _ | _)
  · cases option <;> rfl
  · cases option with
    | field other =>
      simp only [value, Draft.get_set, Option.some.injEq, ArgumentOption.field.injEq]
      by_cases hfield : other = field
      · simp [hfield]
      · have hfield' : ¬ field = other := fun h => hfield h.symm
        simp [hfield, hfield']
    | _ => simp [value]
  · cases option <;> simp [value]
  all_goals cases option <;> simp_all [value, ArgumentOption.flags]

theorem isSet_takeOption (a : Arguments) (name : String) (given : Option String)
    {flag : ArgumentOption} (hflag : flag ∈ ArgumentOption.flags) :
    (a.takeOption name given).isSet flag = true ↔ a.isSet flag = true ∨ name ∈ flag.names := by
  rw [← ArgumentOption.ofName?_eq_some_iff]
  unfold takeOption
  simp only [ArgumentOption.flags, List.mem_cons, List.not_mem_nil, or_false] at hflag
  rcases ArgumentOption.ofName? name with _ | (field | _ | _ | _ | _) <;>
    rcases hflag with rfl | rfl | rfl <;> simp [isSet]

/-! ## Taking them all -/

/-- The arguments after the entries of a command line were taken one after the other. -/
def takeAll (a : Arguments) (entries : List (String × Option String)) : Arguments :=
  entries.foldl (fun a (name, value) => a.takeOption name value) a

/-- The options of a command line with their values, as they come. -/
def entries (args : List String) : List (String × Option String) :=
  (tokenizer.items args).filterMap Item.option?

theorem ofCommandLine_eq (args : List String) :
    ofCommandLine args =
      (ofPositionals ((tokenizer.items args).filterMap Item.positional?)).takeAll
        (entries args) := rfl

theorem takeAll_append_singleton (a : Arguments) (entries : List (String × Option String))
    (name : String) (given : Option String) :
    a.takeAll (entries ++ [(name, given)]) = (a.takeAll entries).takeOption name given := by
  unfold takeAll
  rw [List.foldl_append]
  rfl

/-- The last value that is not blank counts. -/
theorem value_takeAll (a : Arguments) (entries : List (String × Option String))
    {option : ArgumentOption} (hoption : option ∉ ArgumentOption.flags) :
    (a.takeAll entries).value option =
      ((valuesFor option entries).getLast?.map Text.trim).or (a.value option) := by
  induction entries using List.reverseRecOn with
  | nil => rfl
  | append_singleton entries entry ih =>
    obtain ⟨name, given⟩ := entry
    rw [takeAll_append_singleton, value_takeOption _ name given hoption, ih, valuesFor, valuesFor,
      List.filterMap_append]
    cases given with
    | none => simp [valueFor?, newer]
    | some text =>
      rw [newer_eq]
      by_cases hname : name ∈ option.names
      · by_cases hblank : Text.trim text = "" <;> simp [valueFor?, hname, hblank]
      · simp [valueFor?, hname]

/-- A flag counts wherever it comes. -/
theorem isSet_takeAll (a : Arguments) (entries : List (String × Option String))
    {flag : ArgumentOption} (hflag : flag ∈ ArgumentOption.flags) :
    (a.takeAll entries).isSet flag = true ↔
      a.isSet flag = true ∨ ∃ entry ∈ entries, entry.1 ∈ flag.names := by
  induction entries using List.reverseRecOn with
  | nil => simp [takeAll]
  | append_singleton entries entry ih =>
    obtain ⟨name, given⟩ := entry
    beta_reduce at ih
    rw [takeAll_append_singleton, isSet_takeOption _ name given hflag, ih, or_assoc]
    simp [or_and_right, exists_or]

/-! ## The flags of a command line -/

theorem isConfigured_tokenizer : tokenizer.IsConfigured :=
  (Tokenizer.isConfigured_ofValueOptions _).withPrefixes _

theorem prefixes_tokenizer : tokenizer.prefixes = ["--", "-"] := by decide

/-- Behind which prefix a name stands that begins with none. -/
theorem exists_dropFirst?_iff (arg : String) {name : String}
    (hname : name.toList.head? ≠ some '-') :
    (∃ mark, Ranked.dropFirst? tokenizer.prefixes arg.toList = some (mark, name.toList)) ↔
      arg = "-" ++ name ∨ arg = "--" ++ name := by
  have hranked := isConfigured_tokenizer.wellFormed.prefixes
  have hsame : ∀ mark : String, arg.toList = mark.toList ++ name.toList ↔ arg = mark ++ name := by
    intro mark
    rw [← String.toList_append, String.toList_inj]
  simp only [Ranked.dropFirst?_eq_some_iff hranked, hsame]
  constructor
  · rintro ⟨mark, hlongest, rfl⟩
    have hmark := hlongest.mem
    rw [prefixes_tokenizer] at hmark
    simp only [List.mem_cons, List.not_mem_nil, or_false] at hmark
    rcases hmark with rfl | rfl
    · exact Or.inr rfl
    · exact Or.inl rfl
  · rintro (rfl | rfl)
    · refine ⟨"-", ⟨by simp [prefixes_tokenizer], by simp, ?_⟩, rfl⟩
      intro other hother hbegins
      rw [prefixes_tokenizer] at hother
      simp only [List.mem_cons, List.not_mem_nil, or_false] at hother
      rcases hother with rfl | rfl
      · -- the longer prefix would need a dash in the name
        exfalso
        obtain ⟨rest, hrest⟩ := hbegins
        have hdash : name.toList = '-' :: rest := by simpa using hrest.symm
        exact hname (by rw [hdash]; rfl)
      · exact le_rfl
    · refine ⟨"--", ⟨by simp [prefixes_tokenizer], by simp, ?_⟩, rfl⟩
      intro other hother _
      rw [prefixes_tokenizer] at hother
      simp only [List.mem_cons, List.not_mem_nil, or_false] at hother
      rcases hother with rfl | rfl <;> decide

/-- The names of the flags are not blank, begin with no prefix and with no option that takes a
    value. -/
theorem isFree_of_mem_names {flag : ArgumentOption} (hflag : flag ∈ ArgumentOption.flags)
    {name : String} (hname : name ∈ flag.names) : Text.trim name ≠ "" ∧
      name.toList.head? ≠ some '-' ∧
      ∀ option ∈ tokenizer.valueOptions, ¬ option.toList <+: name.toList := by
  have hall : ∀ flag ∈ ArgumentOption.flags, ∀ name ∈ flag.names, Text.trim name ≠ "" ∧
      name.toList.head? ≠ some '-' ∧
      ∀ option ∈ tokenizer.valueOptions, ¬ option.toList <+: name.toList := by
    decide
  exact hall flag hflag name hname

theorem flag_mem_items_iff (args : List String) {flag : ArgumentOption}
    (hflag : flag ∈ ArgumentOption.flags) {name : String} (hname : name ∈ flag.names) :
    (∃ value, .option name value ∈ tokenizer.items args) ↔
      "-" ++ name ∈ args ∨ "--" ++ name ∈ args := by
  obtain ⟨hblank, hdash, hfree⟩ := isFree_of_mem_names hflag hname
  unfold Tokenizer.items
  rw [Tokenizer.option_mem_itemsAfter_iff isConfigured_tokenizer.wellFormed hblank hfree args
    (by simp)]
  simp only [exists_dropFirst?_iff _ hdash]
  constructor
  · rintro ⟨arg, harg, rfl | rfl⟩
    · exact Or.inl harg
    · exact Or.inr harg
  · rintro (harg | harg)
    · exact ⟨_, harg, Or.inl rfl⟩
    · exact ⟨_, harg, Or.inr rfl⟩

theorem mem_entries_iff (items : List Item) (name : String) (value : Option String) :
    (name, value) ∈ items.filterMap Item.option? ↔ .option name value ∈ items := by
  rw [List.mem_filterMap]
  constructor
  · rintro ⟨item, hitem, hoption⟩
    cases item with
    | positional text => simp [Item.option?] at hoption
    | option other given =>
      simp only [Item.option?, Option.some.injEq, Prod.mk.injEq] at hoption
      obtain ⟨rfl, rfl⟩ := hoption
      exact hitem
  · intro hitem
    exact ⟨_, hitem, rfl⟩

/-- A flag is set if it is among the entries. -/
theorem isSet_iff_exists_entry (args : List String) {flag : ArgumentOption}
    (hflag : flag ∈ ArgumentOption.flags) :
    (ofCommandLine args).isSet flag = true ↔ ∃ entry ∈ entries args, entry.1 ∈ flag.names := by
  have hstart : ∀ positionals, (ofPositionals positionals).isSet flag = false := by
    intro positionals
    cases flag <;> rfl
  rw [ofCommandLine_eq, isSet_takeAll _ _ hflag, hstart, Bool.false_eq_true, false_or]

/-- A flag is set if and only if one of its names stands behind a prefix somewhere. -/
theorem isSet_ofCommandLine (args : List String) {flag : ArgumentOption}
    (hflag : flag ∈ ArgumentOption.flags) :
    (ofCommandLine args).isSet flag = true ↔
      ∃ name ∈ flag.names, "-" ++ name ∈ args ∨ "--" ++ name ∈ args := by
  rw [isSet_iff_exists_entry args hflag]
  constructor
  · rintro ⟨⟨name, value⟩, hmem, hname⟩
    rw [entries, mem_entries_iff] at hmem
    exact ⟨name, hname, (flag_mem_items_iff args hflag hname).1 ⟨value, hmem⟩⟩
  · rintro ⟨name, hname, harg⟩
    obtain ⟨value, hvalue⟩ := (flag_mem_items_iff args hflag hname).2 harg
    exact ⟨(name, value), (mem_entries_iff _ _ _).2 hvalue, hname⟩

/-! ## Options and roots -/

theorem finalize_eq_ok_iff {a : Arguments} {fs : FileSystem} {result : ProjectOptions × Roots} :
    a.finalize fs = .ok result ↔
      ∃ file, a.fileDraft fs = .ok file ∧ (file.merge a.draft).finalize fs = .ok result := by
  unfold finalize resolve
  cases hfile : a.fileDraft fs with
  | error cause => simp [Except.map, Except.bind]
  | ok file => simp [Except.map, Except.bind]

end Arguments

end Scaffold
