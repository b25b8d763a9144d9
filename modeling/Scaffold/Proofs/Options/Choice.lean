import Scaffold.Proofs.CommandLine.Arguments

set_option autoImplicit false

/-! # Which choice counts

An orientation or a scene passes three layers. The command line keeps its last value that is not
blank, whatever it means (`value_ofCommandLine`). Laying it over the options file and filling in the
default then leaves the last value that means something of the two that are left
(`choice_overlayValid`).

So the last value that means something counts among all that were given, except in one case: a value
that means nothing comes last on the command line, after one that means something. Then every value
of the command line is lost, and that of the file or the default counts (`finalize_isChosen`). -/

namespace Scaffold

/-- The meaning of the last value that means something. -/
def lastMeaning {α : Type} (parse? : String → Option α) (values : List String) : Option α :=
  (values.filterMap parse?).getLast?

theorem lastMeaning_append {α : Type} (parse? : String → Option α) (before after : List String) :
    lastMeaning parse? (before ++ after) =
      (lastMeaning parse? after).or (lastMeaning parse? before) := by
  unfold lastMeaning
  rw [List.filterMap_append, List.getLast?_append]

theorem lastMeaning_toList {α : Type} (parse? : String → Option α) (value : Option String) :
    lastMeaning parse? value.toList = value.bind parse? := by
  cases value with
  | none => rfl
  | some text =>
    show ([text].filterMap parse?).getLast? = parse? text
    cases htext : parse? text <;> simp [htext]

/-- The last value means nothing, though one before it means something. -/
def IsOverruled {α : Type} (parse? : String → Option α) (values : List String) : Prop :=
  ∃ before last, values = before ++ [last] ∧ parse? last = none ∧
    ∃ value ∈ before, (parse? value).isSome

theorem bind_getLast?_of_isOverruled {α : Type} {parse? : String → Option α} {values : List String}
    (h : IsOverruled parse? values) : values.getLast?.bind parse? = none := by
  obtain ⟨before, last, rfl, hlast, -⟩ := h
  rw [List.getLast?_concat]
  exact hlast

theorem bind_getLast?_of_not_isOverruled {α : Type} {parse? : String → Option α}
    {values : List String} (h : ¬ IsOverruled parse? values) :
    values.getLast?.bind parse? = lastMeaning parse? values := by
  rcases List.eq_nil_or_concat values with rfl | ⟨before, last, rfl⟩
  · rfl
  rw [List.concat_eq_append] at h ⊢
  rw [List.getLast?_concat, lastMeaning_append, ← Option.toList_some, lastMeaning_toList]
  show parse? last = (parse? last).or _
  cases hlast : parse? last with
  | some meaning => rfl
  | none =>
    -- nothing before the last value means anything either
    have hnone : before.filterMap parse? = [] := by
      rw [List.filterMap_eq_nil_iff]
      intro value hvalue
      rw [← Option.not_isSome_iff_eq_none]
      intro hsome
      exact h ⟨before, last, rfl, hlast, value, hvalue, hsome⟩
    rw [Option.none_or, lastMeaning, hnone, List.getLast?_nil]

/-- Blanks around a value do not matter to a reader of choices, and a blank value that means
    something means the default. -/
structure ReadsChoices {α : Type} (parse? : String → Option α) (default : α) : Prop where
  trim : ∀ value, parse? (Text.trim value) = parse? value
  blank : (parse? "").getD default = default

theorem choiceWord_trim (value : String) : choiceWord (Text.trim value) = choiceWord value := by
  unfold choiceWord
  rw [Text.trim_trim]

theorem readsChoices_orientation : ReadsChoices Orientation.parse? .default where
  trim value := by
    unfold Orientation.parse?
    rw [choiceWord_trim]
  blank := by decide

theorem readsChoices_scene : ReadsChoices Scene.parse? .default where
  trim value := by
    unfold Scene.parse?
    rw [choiceWord_trim]
  blank := by decide

namespace Draft

section Layers

variable {α : Type} {parse? : String → Option α} {default : α}

theorem choice_eq (h : ReadsChoices parse? default) (value : Option String) :
    choice parse? default value = (value.bind parse?).getD default := by
  cases value with
  | none => rfl
  | some text =>
    unfold choice given
    rw [Option.bind_some, Option.bind_some, Text.nonBlank?_eq]
    by_cases hblank : Text.trim text = ""
    · rw [if_pos hblank, ← h.trim text, hblank, h.blank]
    · rw [if_neg hblank, ← h.trim text]

/-- Of two layers the last value that means something counts. -/
theorem choice_overlayValid (h : ReadsChoices parse? default) (below above : Option String) :
    choice parse? default (overlayValid (fun value => (parse? value).isSome) below above) =
      ((above.bind parse?).or (below.bind parse?)).getD default := by
  rw [choice_eq h]
  cases below with
  | none => simp [overlayValid]
  | some old =>
    cases above with
    | none => rfl
    | some new =>
      unfold overlayValid
      cases hnew : parse? new <;> simp [hnew]

end Layers

end Draft

namespace Arguments

/-- The command line keeps the last value that is not blank. -/
theorem value_ofCommandLine (args : List String) {option : ArgumentOption}
    (hoption : option ∉ ArgumentOption.flags) (hname : option ≠ .field .programName) :
    (ofCommandLine args).value option =
      (valuesFor option (entries args)).getLast?.map Text.trim := by
  have hstart : ∀ positionals, (ofPositionals positionals).value option = none := by
    intro positionals
    cases option with
    | field field => cases field <;> first | rfl | exact absurd rfl hname
    | _ => rfl
  rw [ofCommandLine_eq, value_takeAll _ _ hoption, hstart, Option.or_none]

/-- What is chosen when `file` was given in the options file and `values`, without blank ones, on
    the command line. -/
structure IsChosen {α : Type} (parse? : String → Option α) (default : α) (file : Option String)
    (values : List String) (chosen : α) : Prop where
  last : ¬ IsOverruled parse? values →
    chosen = (lastMeaning parse? (file.toList ++ values)).getD default
  overruled : IsOverruled parse? values →
    chosen = (lastMeaning parse? file.toList).getD default

theorem isChosen_choice {α : Type} {parse? : String → Option α} {default : α}
    (h : ReadsChoices parse? default) (file : Option String) (values : List String) :
    IsChosen parse? default file values
      (Draft.choice parse? default (Draft.overlayValid (fun value => (parse? value).isSome) file
        (values.getLast?.map Text.trim))) := by
  have htrim : (values.getLast?.map Text.trim).bind parse? = values.getLast?.bind parse? := by
    cases values.getLast? with
    | none => rfl
    | some value => exact h.trim value
  rw [Draft.choice_overlayValid h, htrim]
  constructor
  · intro hlast
    rw [bind_getLast?_of_not_isOverruled hlast, lastMeaning_append, lastMeaning_toList]
  · intro hoverruled
    rw [bind_getLast?_of_isOverruled hoverruled, lastMeaning_toList, Option.none_or]

/-- The orientation and the scene that a command line leads to. -/
theorem finalize_isChosen {args : List String} {fs : FileSystem} {options : ProjectOptions}
    {roots : Roots} (h : (ofCommandLine args).finalize fs = .ok (options, roots)) :
    ∃ file, (ofCommandLine args).fileDraft fs = .ok file ∧
      IsChosen Orientation.parse? .default file.orientation
        (valuesFor (.field .orientation) (entries args)) options.orientation ∧
      IsChosen Scene.parse? .default file.scene
        (valuesFor (.field .scene) (entries args)) options.scene := by
  obtain ⟨file, hfile, hfinal⟩ := finalize_eq_ok_iff.1 h
  obtain ⟨-, rfl, -⟩ := Draft.finalize_eq_ok_iff.1 hfinal
  refine ⟨file, hfile, ?_, ?_⟩
  · show IsChosen _ _ _ _ (Draft.choice _ _ (Draft.overlayValid Draft.isOrientation file.orientation
      ((ofCommandLine args).value (.field .orientation))))
    rw [value_ofCommandLine args (by decide) (by decide)]
    exact isChosen_choice readsChoices_orientation _ _
  · show IsChosen _ _ _ _ (Draft.choice _ _ (Draft.overlayValid Draft.isScene file.scene
      ((ofCommandLine args).value (.field .scene))))
    rw [value_ofCommandLine args (by decide) (by decide)]
    exact isChosen_choice readsChoices_scene _ _

/-! ## Examples -/

/-- The roots of a project, and an options file next to them. -/
def choiceFiles : FileSystem :=
  let fs := ((FileSystem.mk [] []).makeDirectories "/eng").2
  let fs := (fs.makeDirectories "/tpl").2
  (fs.write "/opts.yml" "orientation: l\nscene: ui".toUTF8).2

/-- Both choices are made more than once, and the last scene is none. -/
def mixedChoices : List String :=
  ["App", "-e", "/eng", "-d", "/tpl", "--config=/opts.yml", "-o", "h", "-o", "bogus", "-s", "none",
    "--orientation=VERT", "--scene=3d"]

/-- The last orientation counts; the last scene means nothing, so that of the file counts. -/
theorem finalize_isChosen_mixedChoices :
    ∃ options roots, (ofCommandLine mixedChoices).finalize choiceFiles = .ok (options, roots) ∧
      options.orientation = .portrait ∧ options.scene = .uiBaseScene := by
  obtain ⟨options, roots, h⟩ : ∃ options roots,
      (ofCommandLine mixedChoices).finalize choiceFiles = .ok (options, roots) :=
    ⟨{ ProjectOptions.ofProgramName "App" with orientation := .portrait, scene := .uiBaseScene },
      ⟨"/eng", "/tpl"⟩, by decide +kernel⟩
  have hfile : (ofCommandLine mixedChoices).fileDraft choiceFiles =
      .ok { Draft.empty with orientation := some "l", scene := some "ui" } := by
    decide +kernel
  have horientations : valuesFor (.field .orientation) (entries mixedChoices) =
      ["h", "bogus", "VERT"] := by
    decide +kernel
  have hscenes : valuesFor (.field .scene) (entries mixedChoices) = ["none", "3d"] := by
    decide +kernel
  obtain ⟨file, hfile', horientation, hscene⟩ := finalize_isChosen h
  obtain rfl := Except.ok.inj (hfile.symm.trans hfile')
  rw [horientations] at horientation
  rw [hscenes] at hscene
  refine ⟨options, roots, h, ?_, ?_⟩
  · refine (horientation.last ?_).trans (by decide)
    intro hoverruled
    exact absurd (bind_getLast?_of_isOverruled hoverruled) (by decide)
  · exact (hscene.overruled ⟨["none"], "3d", rfl, by decide, by decide⟩).trans (by decide)

/-- The last orientation means nothing, though the one before it does. -/
def overruledChoice : List String :=
  ["App", "-e", "/eng", "-d", "/tpl", "-o", "portrait", "-o", "bogus"]

/-- The last value that means something does not count if one that means nothing follows it. -/
theorem exists_finalize_ignores_lastMeaning :
    ∃ args fs options roots file, (ofCommandLine args).finalize fs = .ok (options, roots) ∧
      (ofCommandLine args).fileDraft fs = .ok file ∧
      options.orientation ≠ (lastMeaning Orientation.parse? (file.orientation.toList ++
        valuesFor (.field .orientation) (entries args))).getD .default := by
  refine ⟨overruledChoice, choiceFiles, .ofProgramName "App", ⟨"/eng", "/tpl"⟩, .empty, ?_, ?_, ?_⟩
  · decide +kernel
  · decide +kernel
  · decide +kernel

end Arguments

end Scaffold
