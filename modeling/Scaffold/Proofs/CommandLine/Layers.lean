import Scaffold.Proofs.CommandLine.Arguments
import Scaffold.Proofs.FileSystem.Files

set_option autoImplicit false

/-! # Layers of options

The options of a command line are laid over those of the options file that it names. An option ends
up with the last value that is not blank, given under any of its names, and with that of the file if
there is none (`ComesTo`); no entry under the name of one option changes another. Names that belong
to no option are kept aside in their order. The file has to be there and to be understood, or there
are no options at all (`resolve_layers`). -/

namespace Scaffold

namespace Arguments

/-- The positional arguments of a command line. -/
def positionals (args : List String) : List String :=
  (tokenizer.items args).filterMap Item.positional?

/-- An entry of the command line gives the option no value: it has another name, or its value is
    missing or blank. -/
def IsSilentOn (option : ArgumentOption) (entry : String × Option String) : Prop :=
  entry.1 ∈ option.names → ∀ text, entry.2 = some text → Text.trim text = ""

/-- What an option comes to, given by entries over a value `below` them: the last value that is not
    blank, trimmed, or the value below if there is none. -/
inductive ComesTo (option : ArgumentOption) (entries : List (String × Option String))
    (below : Option String) : Option String → Prop
  | given {before after : List (String × Option String)} {name text : String}
      (hentries : entries = before ++ (name, some text) :: after) (hname : name ∈ option.names)
      (htext : Text.trim text ≠ "") (hlast : ∀ entry ∈ after, IsSilentOn option entry) :
      ComesTo option entries below (some (Text.trim text))
  | below (hsilent : ∀ entry ∈ entries, IsSilentOn option entry) :
      ComesTo option entries below below

/-- The entries under the names of an option. -/
def named (option : ArgumentOption) (entries : List (String × Option String)) :
    List (String × Option String) :=
  entries.filter fun entry => entry.1 ∈ option.names

/-! ## Values -/

theorem isSilentOn_iff {option : ArgumentOption} {entry : String × Option String} :
    IsSilentOn option entry ↔ valueFor? option entry = none := by
  obtain ⟨name, _ | text⟩ := entry
  · simp [IsSilentOn, valueFor?]
  · simp [IsSilentOn, valueFor?]

/-- The last value that counts is the one that an option comes to. -/
theorem comesTo_getLast? (option : ArgumentOption) (entries : List (String × Option String))
    (below : Option String) :
    ComesTo option entries below
      (((valuesFor option entries).getLast?.map Text.trim).or below) := by
  induction entries using List.reverseRecOn with
  | nil => exact .below (by simp)
  | append_singleton entries entry ih =>
    cases hentry : valueFor? option entry with
    | some value =>
      -- this is the last entry, and it counts
      obtain ⟨name, _ | text⟩ := entry
      · simp [valueFor?] at hentry
      simp only [valueFor?, Option.ite_none_right_eq_some, Option.some.injEq] at hentry
      obtain ⟨⟨hname, htext⟩, rfl⟩ := hentry
      have hlast : (valuesFor option (entries ++ [(name, some text)])).getLast? = some text := by
        simp [valuesFor, valueFor?, hname, htext]
      rw [hlast]
      exact .given rfl hname htext (by simp)
    | none =>
      have hsame : valuesFor option (entries ++ [entry]) = valuesFor option entries := by
        simp [valuesFor, hentry]
      have hsilent : ∀ other ∈ [entry], IsSilentOn option other := by
        intro other hother
        rw [List.mem_singleton.1 hother]
        exact isSilentOn_iff.2 hentry
      rw [hsame]
      generalize ((valuesFor option entries).getLast?.map Text.trim).or below = value at ih
      cases ih with
      | @given before after name text hentries hname htext hlast =>
        have hentries' :
            entries ++ [entry] = before ++ (name, some text) :: (after ++ [entry]) := by
          rw [hentries, List.append_assoc]
          rfl
        refine .given hentries' hname htext fun other hother => ?_
        exact (List.mem_append.1 hother).elim (hlast other) (hsilent other)
      | below hbefore =>
        refine .below fun other hother => ?_
        exact (List.mem_append.1 hother).elim (hbefore other) (hsilent other)

/-- Only the entries under the names of the option count. -/
theorem valuesFor_named (option : ArgumentOption) (entries : List (String × Option String)) :
    valuesFor option (named option entries) = valuesFor option entries := by
  unfold valuesFor named
  rw [List.filterMap_filter]
  congr 1
  funext ⟨name, value⟩
  by_cases hname : name ∈ option.names
  · simp [hname]
  · cases value <;> simp [hname, valueFor?]

theorem value_ofPositionals (positionals : List String) (option : ArgumentOption) :
    (ofPositionals positionals).value option =
      if option = .field .programName then positionals.head?.map Text.trim else none := by
  cases option with
  | field field => cases field <;> rfl
  | _ => rfl

theorem value_ofCommandLine_eq (args : List String) (option : ArgumentOption)
    (hoption : option ∉ ArgumentOption.flags) :
    (ofCommandLine args).value option =
      ((valuesFor option (entries args)).getLast?.map Text.trim).or
        (if option = .field .programName then (positionals args).head?.map Text.trim
          else none) := by
  rw [ofCommandLine_eq, value_takeAll _ _ hoption, value_ofPositionals]
  rfl

/-- No name belongs to the program name, so no entry gives it. -/
theorem programName_ofCommandLine (args : List String) :
    (ofCommandLine args).draft.programName = (positionals args).head?.map Text.trim := by
  have hnone : ∀ entry ∈ entries args, valueFor? (.field .programName) entry = none := by
    rintro ⟨name, _ | text⟩ -
    · rfl
    · simp [valueFor?, ArgumentOption.names]
  have hvalues : valuesFor (.field .programName) (entries args) = [] :=
    List.filterMap_eq_nil_iff.2 hnone
  have hvalue := value_ofCommandLine_eq args (.field .programName) (by decide)
  rw [hvalues, List.getLast?_nil, Option.map_none, Option.none_or, if_pos rfl] at hvalue
  exact hvalue

theorem comesTo_config (args : List String) :
    ComesTo .config (entries args) none (ofCommandLine args).config := by
  have hvalue := value_ofCommandLine_eq args .config (by decide)
  rw [if_neg (by decide)] at hvalue
  have hconfig : (ofCommandLine args).config = _ := hvalue
  rw [hconfig]
  exact comesTo_getLast? _ _ _

/-- An option only depends on the entries under its own names. -/
theorem value_congr {args args' : List String} {option : ArgumentOption}
    (hname : option ≠ .field .programName)
    (hsame : named option (entries args') = named option (entries args)) :
    (ofCommandLine args').value option = (ofCommandLine args).value option := by
  by_cases hoption : option ∈ ArgumentOption.flags
  · -- a flag holds no value
    cases option <;> first | rfl | simp [ArgumentOption.flags] at hoption
  · rw [value_ofCommandLine_eq args' option hoption, value_ofCommandLine_eq args option hoption,
      if_neg hname, if_neg hname, ← valuesFor_named option (entries args'), hsame,
      valuesFor_named]

/-! ## Names without a meaning -/

/-- The name belongs to no option. -/
def IsUnknown (name : String) : Prop :=
  ∀ option ∈ ArgumentOption.flags ++ ArgumentOption.withValue, name ∉ option.names

instance (name : String) : Decidable (IsUnknown name) :=
  inferInstanceAs (Decidable (∀ option ∈ ArgumentOption.flags ++ ArgumentOption.withValue,
    name ∉ option.names))

theorem isUnknown_iff {name : String} : IsUnknown name ↔ ArgumentOption.ofName? name = none := by
  unfold IsUnknown ArgumentOption.ofName?
  rw [List.find?_eq_none]
  simp only [List.contains_iff_mem]

theorem unknown_takeOption (a : Arguments) (name : String) (value : Option String) :
    (a.takeOption name value).unknown = a.unknown ++ if IsUnknown name then [name] else [] := by
  unfold takeOption
  cases hname : ArgumentOption.ofName? name with
  | none => rw [if_pos (isUnknown_iff.2 hname)]
  | some option =>
    have hknown : ¬ IsUnknown name := by
      rw [isUnknown_iff, hname]
      simp
    rw [if_neg hknown, List.append_nil]
    cases option <;> rfl

theorem extra_takeOption (a : Arguments) (name : String) (value : Option String) :
    (a.takeOption name value).extra = a.extra := by
  unfold takeOption
  rcases ArgumentOption.ofName? name with _ | _ | _ | _ | _ | _ <;> rfl

theorem unknown_takeAll (a : Arguments) (entries : List (String × Option String)) :
    (a.takeAll entries).unknown =
      a.unknown ++ (entries.map Prod.fst).filter fun name => IsUnknown name := by
  induction entries using List.reverseRecOn with
  | nil => simp [takeAll]
  | append_singleton entries entry ih =>
    obtain ⟨name, value⟩ := entry
    rw [takeAll_append_singleton, unknown_takeOption, ih]
    by_cases hname : IsUnknown name <;> simp [hname]

theorem extra_takeAll (a : Arguments) (entries : List (String × Option String)) :
    (a.takeAll entries).extra = a.extra := by
  induction entries using List.reverseRecOn with
  | nil => rfl
  | append_singleton entries entry ih =>
    obtain ⟨name, value⟩ := entry
    rw [takeAll_append_singleton, extra_takeOption, ih]

theorem unknown_ofCommandLine (args : List String) :
    (ofCommandLine args).unknown =
      ((entries args).map Prod.fst).filter fun name => IsUnknown name := by
  rw [ofCommandLine_eq, unknown_takeAll]
  rfl

theorem extra_ofCommandLine (args : List String) :
    (ofCommandLine args).extra = (positionals args).tail := by
  rw [ofCommandLine_eq, extra_takeAll]
  exact List.drop_one

/-! ## The options file -/

/-- What the options file holds that is named, if one is. -/
inductive FileHolds (fs : FileSystem) : Option String → Draft → Prop
  | unnamed : FileHolds fs none .empty
  | file {path text : String} {draft : Draft} (htext : fs.readText path = .ok text)
      (hdraft : Draft.parse? text = some draft) : FileHolds fs (some path) draft

theorem load_eq_ok_iff {path : String} {fs : FileSystem} {draft : Draft} :
    Draft.load path fs = .ok draft ↔
      ∃ text, fs.readText path = .ok text ∧ Draft.parse? text = some draft := by
  unfold Draft.load
  cases hfile : fs.isFile path with
  | false =>
    -- what is no file cannot be read
    simp only [Bool.false_eq_true, if_false, reduceCtorEq, false_iff]
    rintro ⟨text, htext, -⟩
    rw [FileSystem.isFile_iff.2 (FileSystem.exists_read_of_readText htext)] at hfile
    exact absurd hfile (by simp)
  | true =>
    rw [if_pos rfl]
    cases hread : fs.readText path with
    | error cause => simp
    | ok text =>
      unfold Draft.parse
      cases hdraft : Draft.parse? text <;> simp [hdraft]

theorem fileDraft_eq_ok_iff {a : Arguments} {fs : FileSystem} {draft : Draft} :
    a.fileDraft fs = .ok draft ↔ FileHolds fs a.config draft := by
  unfold fileDraft
  cases a.config with
  | none =>
    constructor
    · intro h
      rw [← Except.ok.inj h]
      exact .unnamed
    · rintro ⟨⟩
      rfl
  | some path =>
    dsimp only
    rw [load_eq_ok_iff]
    constructor
    · rintro ⟨text, htext, hdraft⟩
      exact .file htext hdraft
    · rintro (_ | ⟨htext, hdraft⟩)
      exact ⟨_, htext, hdraft⟩

/-- The options of the command line are laid over what the file holds. -/
theorem resolve_of_fileHolds {a : Arguments} {fs : FileSystem} {file : Draft}
    (h : FileHolds fs a.config file) : a.resolve fs = .ok (file.merge a.draft) := by
  unfold resolve
  rw [fileDraft_eq_ok_iff.2 h]
  rfl

theorem exists_resolve_error {a : Arguments} {fs : FileSystem}
    (h : ¬ ∃ file, FileHolds fs a.config file) : ∃ error, a.resolve fs = .error error := by
  unfold resolve
  cases hdraft : a.fileDraft fs with
  | ok file => exact absurd ⟨file, fileDraft_eq_ok_iff.1 hdraft⟩ h
  | error error => exact ⟨error, rfl⟩

/-! ## Both layers -/

/-- The fields whose values are any texts. -/
def plainFields : List DraftField :=
  [.title, .projectDir, .appIdentifier, .engineRoot, .templateRoot]

/-- The draft is what the command line gives over what the options file gives. -/
structure IsLaidOver (args : List String) (file draft : Draft) : Prop where
  programName : draft.programName =
    ((positionals args).head?.map Text.trim).or file.programName
  plain : ∀ field ∈ plainFields,
    ComesTo (.field field) (entries args) (file.get field) (draft.get field)

theorem overlay_eq_or (below above : Option String) :
    Draft.overlay below above = above.or below := by
  cases above <;> rfl

theorem get_merge {field : DraftField} (hfield : field ∈ plainFields) (below above : Draft) :
    (below.merge above).get field = (above.get field).or (below.get field) := by
  rw [← overlay_eq_or]
  simp only [plainFields, List.mem_cons, List.not_mem_nil, or_false] at hfield
  rcases hfield with rfl | rfl | rfl | rfl | rfl <;> rfl

theorem isLaidOver_merge (args : List String) (file : Draft) :
    IsLaidOver args file (file.merge (ofCommandLine args).draft) := by
  constructor
  · rw [← programName_ofCommandLine, ← overlay_eq_or]
    rfl
  · intro field hfield
    have hname : ArgumentOption.field field ≠ .field .programName := by
      rintro h
      rw [ArgumentOption.field.inj h] at hfield
      exact absurd hfield (by decide)
    have hvalue := value_ofCommandLine_eq args (.field field) (by simp [ArgumentOption.flags])
    rw [if_neg hname, Option.or_none] at hvalue
    have hget : (ofCommandLine args).draft.get field = _ := hvalue
    rw [get_merge hfield, hget]
    exact comesTo_getLast? _ _ _

/-- What a command line comes to. The options file that counts is the last one that is named. If
    there is such a file and it cannot be understood, or it is missing, there is an error; otherwise
    the command line is laid over it. A flag is set if and only if one of its names comes up, and
    what an option comes to only depends on the entries under its own names. -/
theorem resolve_layers (args : List String) (fs : FileSystem) :
    ComesTo .config (entries args) none (ofCommandLine args).config ∧
    (∀ file, FileHolds fs (ofCommandLine args).config file →
      ∃ draft, (ofCommandLine args).resolve fs = .ok draft ∧ IsLaidOver args file draft) ∧
    ((¬ ∃ file, FileHolds fs (ofCommandLine args).config file) →
      ∃ error, (ofCommandLine args).resolve fs = .error error) ∧
    (∀ flag ∈ ArgumentOption.flags, (ofCommandLine args).isSet flag = true ↔
      ∃ entry ∈ entries args, entry.1 ∈ flag.names) ∧
    (ofCommandLine args).unknown =
      ((entries args).map Prod.fst).filter (fun name => IsUnknown name) ∧
    (ofCommandLine args).extra = (positionals args).tail ∧
    ∀ args' option, option ≠ .field .programName →
      named option (entries args') = named option (entries args) →
      (ofCommandLine args').value option = (ofCommandLine args).value option := by
  refine ⟨comesTo_config args, fun file hfile => ?_, exists_resolve_error,
    fun flag hflag => isSet_iff_exists_entry args hflag, unknown_ofCommandLine args,
    extra_ofCommandLine args, fun args' option hname hsame => value_congr hname hsame⟩
  exact ⟨_, resolve_of_fileHolds hfile, isLaidOver_merge args file⟩

end Arguments

end Scaffold
