import Scaffold.Options.Project
import Scaffold.Proofs.CommandLine.Arguments
import Scaffold.Proofs.FileSystem.Absolute
import Scaffold.Proofs.Text.Splitting

set_option autoImplicit false

/-! # Finalizing a draft

Finalizing succeeds for the valid drafts and fills in what they leave blank; for every other draft
it lists the conditions that are violated, each of them once and in a fixed order
(`finalize_outcome`). What is filled in is checked like what was given: a blank identifier is made
from the program name and is valid exactly if that is. -/

namespace Scaffold

/-! ## Names and identifiers -/

/-- An ASCII letter. -/
def IsLetter (c : Char) : Prop :=
  ('A' ≤ c ∧ c ≤ 'Z') ∨ ('a' ≤ c ∧ c ≤ 'z')

/-- An ASCII digit. -/
def IsDigit (c : Char) : Prop :=
  '0' ≤ c ∧ c ≤ '9'

instance (c : Char) : Decidable (IsLetter c) :=
  inferInstanceAs (Decidable (_ ∨ _))

instance (c : Char) : Decidable (IsDigit c) :=
  inferInstanceAs (Decidable (_ ∧ _))

/-- The text is a letter followed by letters and digits. -/
def IsPlainName (text : String) : Prop :=
  ∃ first rest, text.toList = first :: rest ∧ IsLetter first ∧ ∀ c ∈ rest, IsLetter c ∨ IsDigit c

/-- The text is two or more plain names joined by dots. -/
def IsIdentifier (text : String) : Prop :=
  ∃ names : List String,
    2 ≤ names.length ∧ (∀ name ∈ names, IsPlainName name) ∧ text = ".".intercalate names

theorem isAlpha_iff (c : Char) : c.isAlpha = true ↔ IsLetter c := by
  have hupper : c.isUpper = true ↔ 'A' ≤ c ∧ c ≤ 'Z' := decide_eq_true_iff
  have hlower : c.isLower = true ↔ 'a' ≤ c ∧ c ≤ 'z' := by
    show (decide ('a' ≤ c) && decide (c ≤ 'z')) = true ↔ _
    rw [Bool.and_eq_true, decide_eq_true_iff, decide_eq_true_iff]
  show (c.isUpper || c.isLower) = true ↔ _
  rw [Bool.or_eq_true, hupper, hlower]
  rfl

theorem isAlphanum_iff (c : Char) : c.isAlphanum = true ↔ IsLetter c ∨ IsDigit c := by
  have hdigit : c.isDigit = true ↔ IsDigit c := by
    show (decide ('0' ≤ c) && decide (c ≤ '9')) = true ↔ _
    rw [Bool.and_eq_true, decide_eq_true_iff, decide_eq_true_iff]
    rfl
  show (c.isAlpha || c.isDigit) = true ↔ _
  rw [Bool.or_eq_true, isAlpha_iff, hdigit]

theorem isPlainName_iff (cs : List Char) :
    isPlainName cs = true ↔ IsPlainName (String.ofList cs) := by
  unfold IsPlainName
  rw [String.toList_ofList]
  cases cs with
  | nil => simp [isPlainName]
  | cons c cs =>
    simp only [isPlainName, Bool.and_eq_true, List.all_eq_true, isAlpha_iff, isAlphanum_iff]
    constructor
    · rintro ⟨hfirst, hrest⟩
      exact ⟨c, cs, rfl, hfirst, hrest⟩
    · rintro ⟨first, rest, hcs, hfirst, hrest⟩
      obtain ⟨rfl, rfl⟩ := List.cons.inj hcs
      exact ⟨hfirst, hrest⟩

theorem isProgramName_iff (name : String) : isProgramName name = true ↔ IsPlainName name := by
  unfold isProgramName
  rw [isPlainName_iff, String.ofList_toList]

theorem IsPlainName.ne_empty {name : String} (h : IsPlainName name) : name ≠ "" := by
  obtain ⟨first, rest, hname, -⟩ := h
  rintro rfl
  exact absurd hname (by simp)

theorem IsPlainName.dot_not_mem {name : String} (h : IsPlainName name) : '.' ∉ name.toList := by
  obtain ⟨first, rest, hname, hfirst, hrest⟩ := h
  have hletter : ¬ IsLetter '.' := by decide
  rw [hname, List.mem_cons, not_or]
  refine ⟨?_, fun hmem => ?_⟩
  · rintro rfl
    exact hletter hfirst
  · rcases hrest '.' hmem with hdot | hdot
    · exact hletter hdot
    · exact absurd hdot (by decide)

/-- The parts between the dots are plain names if and only if the text is plain names joined by
    dots. -/
theorem isAppIdentifier_iff (identifier : String) :
    isAppIdentifier identifier = true ↔ IsIdentifier identifier := by
  simp only [isAppIdentifier, Bool.and_eq_true, decide_eq_true_eq, List.all_eq_true,
    isPlainName_iff]
  constructor
  · rintro ⟨hlength, hparts⟩
    refine ⟨(Text.splitChars '.' identifier.toList).map String.ofList, by simpa using hlength, ?_,
      ?_⟩
    · intro name hname
      obtain ⟨part, hpart, rfl⟩ := List.mem_map.1 hname
      exact hparts part hpart
    · apply String.toList_injective
      rw [String.toList_intercalate, List.map_map]
      simpa [Function.comp_def] using (Text.intercalate_splitChars '.' identifier.toList).symm
  · rintro ⟨names, hlength, hnames, rfl⟩
    have hne : names.map String.toList ≠ [] := by
      intro hnil
      rw [List.map_eq_nil_iff] at hnil
      simp [hnil] at hlength
    have hparts : Text.splitChars '.' (".".intercalate names).toList = names.map String.toList := by
      rw [String.toList_intercalate]
      refine Text.splitChars_intercalate hne fun part hpart => ?_
      obtain ⟨name, hname, rfl⟩ := List.mem_map.1 hpart
      exact (hnames name hname).dot_not_mem
    rw [hparts, List.length_map]
    refine ⟨hlength, fun part hpart => ?_⟩
    obtain ⟨name, hname, rfl⟩ := List.mem_map.1 hpart
    rw [String.ofList_toList]
    exact hnames name hname

example : IsIdentifier "com.yourcompany.Game2" := (isAppIdentifier_iff _).1 (by decide)

example : ¬ IsIdentifier "com.2games" := fun h => absurd ((isAppIdentifier_iff _).2 h) (by decide)

/-- The identifier that is made from a program name is valid if that is. -/
theorem isIdentifier_default {name : String} (h : IsPlainName name) :
    IsIdentifier ("com.yourcompany." ++ name) := by
  refine ⟨["com", "yourcompany", name], by simp, ?_, ?_⟩
  · have hstart : ∀ part ∈ ["com", "yourcompany"], isProgramName part = true := by decide
    intro part hpart
    rcases List.mem_append.1 (show part ∈ ["com", "yourcompany"] ++ [name] from hpart) with
      hpart | hpart
    · exact (isProgramName_iff part).1 (hstart part hpart)
    · rw [List.mem_singleton.1 hpart]
      exact h
  · apply String.toList_injective
    simp

theorem defaultAppIdentifier_eq (name : String) :
    defaultAppIdentifier name = "com.yourcompany." ++ name :=
  congrArg (· ++ name) (by decide : appIdentifierStart ++ "." = "com.yourcompany.")

namespace Draft

/-! ## What a draft is finalized to -/

/-- A value without the blanks around it; what was not given is blank. -/
def trimmed (value : Option String) : String :=
  Text.trim (value.getD "")

/-- A value without the blanks around it, or the default if it is blank. -/
def orDefault (default : String) (value : Option String) : String :=
  if trimmed value = "" then default else trimmed value

/-- The identifier of the app, given or made from the program name. -/
def identifier (d : Draft) : String :=
  orDefault ("com.yourcompany." ++ trimmed d.programName) d.appIdentifier

/-- The path text of a root, absolute, given or the default. -/
def rootPath (fs : FileSystem) (default : String) (value : Option String) : String :=
  Path.absolute (FileSystem.pathOf fs.workDir) (orDefault default value)

/-- The draft is accepted. -/
structure IsValid (d : Draft) (fs : FileSystem) : Prop where
  programName : IsPlainName (trimmed d.programName)
  appIdentifier : trimmed d.appIdentifier = "" ∨ IsIdentifier (trimmed d.appIdentifier)
  engineRoot : fs.isDirectory (rootPath fs "../.." d.engineRoot) = true
  templateRoot : fs.isDirectory (rootPath fs "Template" d.templateRoot) = true

/-- The options hold what was given, and the program name or what is made from it otherwise. -/
structure FillsIn (d : Draft) (options : ProjectOptions) : Prop where
  programName : options.programName = trimmed d.programName
  projectDir : options.projectDir = orDefault (trimmed d.programName) d.projectDir
  title : options.title = orDefault (trimmed d.programName) d.title
  appIdentifier : options.appIdentifier = d.identifier

/-- The draft violates a condition. -/
inductive Violates (d : Draft) (fs : FileSystem) : Problem → Prop
  | noProgramName (hname : trimmed d.programName = "") : Violates d fs .noProgramName
  | badProgramName (hgiven : trimmed d.programName ≠ "")
    (hname : ¬ IsPlainName (trimmed d.programName)) :
    Violates d fs (.badProgramName (trimmed d.programName))
  | noTitle (htitle : trimmed d.title = "") (hname : trimmed d.programName = "") :
    Violates d fs .noTitle
  | noAppIdentifier (hidentifier : trimmed d.appIdentifier = "")
    (hname : trimmed d.programName = "") : Violates d fs .noAppIdentifier
  | badAppIdentifier (hgiven : trimmed d.appIdentifier ≠ "" ∨ trimmed d.programName ≠ "")
    (hidentifier : ¬ IsIdentifier d.identifier) : Violates d fs (.badAppIdentifier d.identifier)
  | noEngineRoot (hroot : fs.isDirectory (rootPath fs "../.." d.engineRoot) ≠ true) :
    Violates d fs (.noEngineRoot (rootPath fs "../.." d.engineRoot))
  | noTemplateRoot (hroot : fs.isDirectory (rootPath fs "Template" d.templateRoot) ≠ true) :
    Violates d fs (.noTemplateRoot (rootPath fs "Template" d.templateRoot))

/-- Where a problem stands among the others. -/
def rank : Problem → Nat
  | .noProgramName | .badProgramName _ => 0
  | .noTitle => 1
  | .noAppIdentifier | .badAppIdentifier _ => 2
  | .noEngineRoot _ => 3
  | .noTemplateRoot _ => 4

variable {d : Draft} {fs : FileSystem}

theorem given_getD (value : Option String) (default : String) :
    (given value).getD default = orDefault default value := by
  unfold given orDefault trimmed
  cases value with
  | none => rfl
  | some text =>
    rw [Option.bind_some, Text.nonBlank?_eq, Option.getD_some]
    split_ifs <;> rfl

theorem orDefault_eq_empty_iff {default : String} {value : Option String} :
    orDefault default value = "" ↔ trimmed value = "" ∧ default = "" := by
  unfold orDefault
  split_ifs with h <;> simp [h]

theorem programName_options : d.options.programName = trimmed d.programName := by
  show (given d.programName).getD "" = _
  rw [given_getD]
  unfold orDefault
  split_ifs with h
  · exact h.symm
  · rfl

theorem title_options : d.options.title = orDefault (trimmed d.programName) d.title := by
  show (given d.title).getD d.options.programName = _
  rw [given_getD, programName_options]

theorem projectDir_options :
    d.options.projectDir = orDefault (trimmed d.programName) d.projectDir := by
  show (given d.projectDir).getD d.options.programName = _
  rw [given_getD, programName_options]

/-- Nothing is made from a program name that is blank. -/
theorem appIdentifier_options :
    d.options.appIdentifier =
      if trimmed d.appIdentifier = "" ∧ trimmed d.programName = "" then "" else d.identifier := by
  show (given d.appIdentifier).getD (if d.options.programName = "" then ""
    else defaultAppIdentifier d.options.programName) = _
  rw [given_getD, programName_options, defaultAppIdentifier_eq]
  unfold identifier orDefault
  by_cases hname : trimmed d.programName = "" <;>
    by_cases hgiven : trimmed d.appIdentifier = "" <;> simp [hname, hgiven]

theorem roots_eq : d.roots fs =
    ⟨rootPath fs "../.." d.engineRoot, rootPath fs "Template" d.templateRoot⟩ := by
  unfold roots rootPath
  rw [given_getD, given_getD]
  rfl

theorem isAbsolute_rootPath (default : String) (value : Option String) :
    Path.isAbsolute (rootPath fs default value).toList = true :=
  FileSystem.isAbsolute_absolute (FileSystem.isAbsolute_pathOf _) _

/-! ## Problems -/

/-- The list holds the problem of a rank that the draft has, if it has one. -/
structure Lists (d : Draft) (fs : FileSystem) (k : Nat) (listed : List Problem) : Prop where
  ranks : (listed.map rank).Sublist [k]
  mem_iff : ∀ problem, problem ∈ listed ↔ d.Violates fs problem ∧ rank problem = k

theorem lists_nil {k : Nat} (h : ∀ problem, d.Violates fs problem → rank problem ≠ k) :
    d.Lists fs k [] :=
  ⟨List.nil_sublist _, fun problem => by simpa using h problem⟩

theorem lists_singleton {k : Nat} {problem : Problem} (h : d.Violates fs problem)
    (hrank : rank problem = k)
    (hother : ∀ other, d.Violates fs other → rank other = k → other = problem) :
    d.Lists fs k [problem] := by
  refine ⟨by simp [hrank], fun other => ?_⟩
  rw [List.mem_singleton]
  constructor
  · rintro rfl
    exact ⟨h, hrank⟩
  · rintro ⟨hother', hrank'⟩
    exact hother other hother' hrank'

theorem lists_programName :
    d.Lists fs 0 (if trimmed d.programName = "" then [.noProgramName]
      else if isProgramName (trimmed d.programName) = true then []
      else [.badProgramName (trimmed d.programName)]) := by
  split_ifs with hblank hvalid
  · refine lists_singleton (.noProgramName hblank) rfl fun other hother hrank => ?_
    cases hother with
    | noProgramName => rfl
    | badProgramName hgiven => exact absurd hblank hgiven
    | _ => simp [rank] at hrank
  · refine lists_nil fun other hother hrank => ?_
    cases hother with
    | noProgramName hname => exact hblank hname
    | badProgramName _ hname => exact hname ((isProgramName_iff _).1 hvalid)
    | _ => simp [rank] at hrank
  · rw [isProgramName_iff] at hvalid
    refine lists_singleton (.badProgramName hblank hvalid) rfl fun other hother hrank => ?_
    cases hother with
    | noProgramName hname => exact absurd hname hblank
    | badProgramName => rfl
    | _ => simp [rank] at hrank

theorem lists_title :
    d.Lists fs 1
      (if trimmed d.title = "" ∧ trimmed d.programName = "" then [.noTitle] else []) := by
  split_ifs with hblank
  · refine lists_singleton (.noTitle hblank.1 hblank.2) rfl fun other hother hrank => ?_
    cases hother with
    | noTitle => rfl
    | _ => simp [rank] at hrank
  · refine lists_nil fun other hother hrank => ?_
    cases hother with
    | noTitle htitle hname => exact hblank ⟨htitle, hname⟩
    | _ => simp [rank] at hrank

theorem identifier_ne_empty : d.identifier ≠ "" := by
  intro h
  have hstart := (orDefault_eq_empty_iff.1 h).2
  rw [String.append_eq_empty_iff] at hstart
  exact absurd hstart.1 (by decide)

theorem lists_appIdentifier :
    d.Lists fs 2 (if trimmed d.appIdentifier = "" ∧ trimmed d.programName = "" then
        [.noAppIdentifier]
      else if isAppIdentifier d.identifier = true then []
      else [.badAppIdentifier d.identifier]) := by
  split_ifs with hblank hvalid
  · refine lists_singleton (.noAppIdentifier hblank.1 hblank.2) rfl fun other hother hrank => ?_
    cases hother with
    | noAppIdentifier => rfl
    | badAppIdentifier hgiven => exact absurd hblank (not_and_or.2 hgiven)
    | _ => simp [rank] at hrank
  · refine lists_nil fun other hother hrank => ?_
    cases hother with
    | noAppIdentifier hidentifier hname => exact hblank ⟨hidentifier, hname⟩
    | badAppIdentifier _ hidentifier => exact hidentifier ((isAppIdentifier_iff _).1 hvalid)
    | _ => simp [rank] at hrank
  · rw [isAppIdentifier_iff] at hvalid
    refine lists_singleton (.badAppIdentifier (not_and_or.1 hblank) hvalid) rfl
      fun other hother hrank => ?_
    cases hother with
    | noAppIdentifier hidentifier hname => exact absurd ⟨hidentifier, hname⟩ hblank
    | badAppIdentifier => rfl
    | _ => simp [rank] at hrank

theorem lists_engineRoot :
    d.Lists fs 3 (if fs.isDirectory (rootPath fs "../.." d.engineRoot) = true then []
      else [.noEngineRoot (rootPath fs "../.." d.engineRoot)]) := by
  split_ifs with hthere
  · refine lists_nil fun other hother hrank => ?_
    cases hother with
    | noEngineRoot hroot => exact hroot hthere
    | _ => simp [rank] at hrank
  · refine lists_singleton (.noEngineRoot hthere) rfl fun other hother hrank => ?_
    cases hother with
    | noEngineRoot => rfl
    | _ => simp [rank] at hrank

theorem lists_templateRoot :
    d.Lists fs 4 (if fs.isDirectory (rootPath fs "Template" d.templateRoot) = true then []
      else [.noTemplateRoot (rootPath fs "Template" d.templateRoot)]) := by
  split_ifs with hthere
  · refine lists_nil fun other hother hrank => ?_
    cases hother with
    | noTemplateRoot hroot => exact hroot hthere
    | _ => simp [rank] at hrank
  · refine lists_singleton (.noTemplateRoot hthere) rfl fun other hother hrank => ?_
    cases hother with
    | noTemplateRoot => rfl
    | _ => simp [rank] at hrank

/-- The problems are listed rank by rank. -/
theorem exists_problems_eq_append (d : Draft) (fs : FileSystem) :
    ∃ names titles identifiers engines templates,
      d.problems fs = names ++ titles ++ identifiers ++ (engines ++ templates) ∧
      d.Lists fs 0 names ∧ d.Lists fs 1 titles ∧ d.Lists fs 2 identifiers ∧
      d.Lists fs 3 engines ∧ d.Lists fs 4 templates := by
  refine ⟨_, _, _, _, _, ?_, lists_programName, lists_title, lists_appIdentifier,
    lists_engineRoot, lists_templateRoot⟩
  unfold problems optionProblems rootProblems
  rw [roots_eq, programName_options, title_options, appIdentifier_options]
  simp only [orDefault_eq_empty_iff]
  congr 2
  split_ifs <;> simp_all [identifier_ne_empty]

theorem mem_problems_iff (problem : Problem) :
    problem ∈ d.problems fs ↔ d.Violates fs problem := by
  obtain ⟨names, titles, identifiers, engines, templates, hproblems, hnames, htitles,
    hidentifiers, hengines, htemplates⟩ := exists_problems_eq_append d fs
  rw [hproblems]
  simp only [List.mem_append, hnames.mem_iff, htitles.mem_iff, hidentifiers.mem_iff,
    hengines.mem_iff, htemplates.mem_iff]
  constructor
  · rintro (((h | h) | h) | (h | h)) <;> exact h.1
  · intro h
    cases problem <;> simp [h, rank]

theorem pairwise_problems (d : Draft) (fs : FileSystem) :
    (d.problems fs).Pairwise fun earlier later => rank earlier < rank later := by
  obtain ⟨names, titles, identifiers, engines, templates, hproblems, hnames, htitles,
    hidentifiers, hengines, htemplates⟩ := exists_problems_eq_append d fs
  have hranks : ((d.problems fs).map rank).Sublist ([0] ++ [1] ++ [2] ++ ([3] ++ [4])) := by
    rw [hproblems]
    simp only [List.map_append]
    exact ((hnames.ranks.append htitles.ranks).append hidentifiers.ranks).append
      (hengines.ranks.append htemplates.ranks)
  exact List.pairwise_map.1 (List.Pairwise.sublist hranks (by decide))

/-- The draft is valid if no condition is violated. -/
theorem isValid_iff : d.IsValid fs ↔ ∀ problem, ¬ d.Violates fs problem := by
  constructor
  · intro hvalid problem h
    have hname := hvalid.programName.ne_empty
    cases h with
    | noProgramName hblank => exact hname hblank
    | badProgramName _ hbad => exact hbad hvalid.programName
    | noTitle _ hblank => exact hname hblank
    | noAppIdentifier _ hblank => exact hname hblank
    | badAppIdentifier _ hbad =>
      refine hbad ?_
      unfold identifier orDefault
      split_ifs with hblank
      · exact isIdentifier_default hvalid.programName
      · exact hvalid.appIdentifier.resolve_left hblank
    | noEngineRoot hroot => exact hroot hvalid.engineRoot
    | noTemplateRoot hroot => exact hroot hvalid.templateRoot
  · intro h
    have hname : trimmed d.programName ≠ "" := fun hblank => h _ (.noProgramName hblank)
    refine ⟨?_, ?_, ?_, ?_⟩
    · by_contra hbad
      exact h _ (.badProgramName hname hbad)
    · by_contra hbad
      rw [not_or] at hbad
      refine h _ (.badAppIdentifier (.inr hname) ?_)
      unfold identifier orDefault
      rw [if_neg hbad.1]
      exact hbad.2
    · by_contra hroot
      exact h _ (.noEngineRoot hroot)
    · by_contra hroot
      exact h _ (.noTemplateRoot hroot)

theorem problems_eq_nil_iff : d.problems fs = [] ↔ d.IsValid fs := by
  rw [isValid_iff, List.eq_nil_iff_forall_not_mem]
  exact forall_congr' fun problem => not_congr (mem_problems_iff problem)

/-- Choices that mean nothing are logged as warnings. -/
theorem error_choiceLog {α : Type} (parse? : String → Option α) (what : String)
    (value : Option String) :
    (choiceLog parse? what value).filter (fun line => line.level = .error) = [] := by
  unfold choiceLog
  split
  · split_ifs <;> rfl
  · rfl

theorem errors_finalizeLog (d : Draft) (fs : FileSystem) :
    (d.finalizeLog fs).filter (fun line => line.level = .error) =
      (d.problems fs).map fun problem => ⟨.error, problem.message⟩ := by
  unfold finalizeLog
  rw [List.filter_append, List.filter_append, error_choiceLog, error_choiceLog, List.nil_append,
    List.nil_append, List.filter_eq_self]
  intro line hline
  obtain ⟨problem, -, rfl⟩ := List.mem_map.1 hline
  rfl

theorem fillsIn_options (hvalid : d.IsValid fs) : d.FillsIn d.options := by
  refine ⟨programName_options, projectDir_options, title_options, ?_⟩
  rw [appIdentifier_options, if_neg]
  exact fun hblank => hvalid.programName.ne_empty hblank.2

theorem isIdentifier_options (hvalid : d.IsValid fs) :
    IsIdentifier d.options.appIdentifier := by
  rw [(fillsIn_options hvalid).appIdentifier]
  by_contra hbad
  exact isValid_iff.1 hvalid _ (.badAppIdentifier (.inr hvalid.programName.ne_empty) hbad)

theorem finalize_eq_error_iff {error : Error} :
    d.finalize fs = .error error ↔ d.problems fs ≠ [] ∧ error = .ofProblems (d.problems fs) := by
  unfold finalize
  cases hproblems : d.problems fs with
  | nil => simp
  | cons problem problems => simp [eq_comm]

/-- Every draft either is valid and is filled in, or it is refused with all the conditions that it
    violates, in order. The conditions are logged as errors, and nothing else is. Whether a root
    is there is told by the path text as it was given, seen from the working directory, as far as
    the system accepts the absolute one. -/
theorem finalize_outcome (d : Draft) (fs : FileSystem) :
    (∃ listed : List Problem,
      (∀ problem, problem ∈ listed ↔ d.Violates fs problem) ∧
      listed.Pairwise (fun earlier later => rank earlier < rank later) ∧
      (d.finalizeLog fs).filter (fun line => line.level = .error) =
        listed.map (fun problem => ⟨.error, problem.message⟩) ∧
      match d.finalize fs with
      | .ok (options, roots) =>
        d.IsValid fs ∧ d.FillsIn options ∧ IsIdentifier options.appIdentifier ∧
          roots = ⟨rootPath fs "../.." d.engineRoot, rootPath fs "Template" d.templateRoot⟩ ∧
          Path.isAbsolute roots.engineRoot.toList = true ∧
          Path.isAbsolute roots.templateRoot.toList = true
      | .error error =>
        ¬ d.IsValid fs ∧ error = .validation ("; ".intercalate (listed.map Problem.message))) ∧
    ∀ default value,
      fs.LeadsTo (FileSystem.pathOf fs.workDir) fs.workDir →
      (fs.isDirectory (rootPath fs default value) = true ↔
        FileSystem.Accepts (rootPath fs default value) ∧
          ∃ place, fs.IsRoot (orDefault default value) place) := by
  refine ⟨⟨d.problems fs, mem_problems_iff, pairwise_problems d fs, errors_finalizeLog d fs, ?_⟩,
    fun default value hwork =>
      FileSystem.isDirectory_absolute_iff (FileSystem.isAbsolute_pathOf _) hwork⟩
  cases hresult : d.finalize fs with
  | ok result =>
    obtain ⟨options, roots⟩ := result
    obtain ⟨hproblems, rfl, rfl⟩ := finalize_eq_ok_iff.1 hresult
    have hvalid := problems_eq_nil_iff.1 hproblems
    refine ⟨hvalid, fillsIn_options hvalid, isIdentifier_options hvalid, roots_eq, ?_⟩
    rw [roots_eq]
    exact ⟨isAbsolute_rootPath _ _, isAbsolute_rootPath _ _⟩
  | error error =>
    obtain ⟨hproblems, rfl⟩ := finalize_eq_error_iff.1 hresult
    exact ⟨fun hvalid => hproblems (problems_eq_nil_iff.2 hvalid), rfl⟩

/-- A program in two directories below its engine. -/
def inEngine : FileSystem :=
  ⟨[("engine", .directory [("games", .directory [("new", .directory [])])])],
    ["engine", "games", "new"]⟩

theorem leadsTo_inEngine :
    inEngine.LeadsTo (FileSystem.pathOf inEngine.workDir) inEngine.workDir := by
  unfold FileSystem.LeadsTo
  decide +kernel

theorem isRoot_inEngine :
    inEngine.LeadsTo (FileSystem.pathOf inEngine.workDir) inEngine.workDir ∧
      ∃ place, inEngine.IsRoot "../.." place := by
  have hdirectory : inEngine.isDirectory (rootPath inEngine "../.." none) = true := by
    decide +kernel
  have hroot := (finalize_outcome empty inEngine).2 "../.." none leadsTo_inEngine
  exact ⟨leadsTo_inEngine, (hroot.1 hdirectory).2⟩

example : ({ empty with programName := some " Game " } : Draft).finalize inEngine =
    .error (.validation "Template data NOT exists: /engine/games/new/Template") := by
  decide +kernel

end Draft

end Scaffold
