import Mathlib.Data.List.Forall2
import Scaffold.Proofs.CommandLine.Spelling

set_option autoImplicit false

/-! # Groups of arguments

A command line falls into groups: an argument that is positional, an option by itself, or an option
and the argument behind it that is its value. Whether an argument is such a value can be told from
it and the argument directly before it, so a value never stands behind anything but the option it
belongs to. Each group comes to one item, in their order, so that nothing is lost and nothing counted
twice (`groups_account`). -/

namespace Scaffold

/-- Arguments that belong together. -/
inductive ArgGroup
  | positional (arg : String)
  | option (arg : String)
  /-- An option and its value. -/
  | answered (arg value : String)
  deriving DecidableEq, Repr

/-- What an argument is in its group. -/
inductive ArgRole
  | positional
  | option
  | value
  deriving DecidableEq, Repr

namespace ArgGroup

/-- The arguments of a group. -/
def args : ArgGroup → List String
  | .positional arg => [arg]
  | .option arg => [arg]
  | .answered arg value => [arg, value]

/-- What the arguments of a group are. -/
def roles : ArgGroup → List ArgRole
  | .positional _ => [.positional]
  | .option _ => [.option]
  | .answered _ _ => [.option, .value]

/-- The positional argument of a group. -/
def positional? : ArgGroup → Option String
  | .positional arg => some arg
  | .option _ | .answered _ _ => none

/-- The argument of a group that is an option. -/
def option? : ArgGroup → Option String
  | .positional _ => none
  | .option arg | .answered arg _ => some arg

end ArgGroup

namespace Tokenizer

open Ranked

variable {t : Tokenizer} {arg next rest name : String} {args : List String}
variable {before : Option String}

/-! ## What an argument is -/

/-- The argument is the longest prefix that begins it, and `rest` behind it. -/
def IsBehind (t : Tokenizer) (rest arg : String) : Prop :=
  ∃ mark, IsLongest t.prefixes arg.toList mark ∧ arg = mark ++ rest

/-- There is nothing but a prefix, and perhaps blanks. -/
def IsBare (t : Tokenizer) (arg : String) : Prop :=
  ∃ rest, t.IsBehind rest arg ∧ Text.trim rest = ""

/-- Behind the prefix there is more than blanks. -/
def IsOption (t : Tokenizer) (arg : String) : Prop :=
  ∃ rest, t.IsBehind rest arg ∧ Text.trim rest ≠ ""

/-- The argument is a prefix and the name of an option that takes a value. -/
def Awaits (t : Tokenizer) (arg name : String) : Prop :=
  t.IsBehind name arg ∧ name ∈ t.valueOptions

/-- The argument begins with no prefix, and the one directly before it waits for a value. -/
def IsSeparate (t : Tokenizer) (before : Option String) (arg : String) : Prop :=
  t.IsPlain arg ∧ ∃ option ∈ before, ∃ name, t.Awaits option name

/-- What an argument behind `before` is. -/
def HasRole (t : Tokenizer) (before : Option String) (arg : String) : ArgRole → Prop
  | .positional => t.IsPlain arg ∧ ¬ t.IsSeparate before arg ∨ t.IsBare arg
  | .option => t.IsOption arg
  | .value => t.IsSeparate before arg

theorem isBehind_iff (ht : t.WellFormed) :
    t.IsBehind rest arg ↔ ∃ mark, dropFirst? t.prefixes arg.toList = some (mark, rest.toList) := by
  unfold IsBehind
  refine exists_congr fun mark => ?_
  rw [dropFirst?_eq_some_iff ht.prefixes, ← String.toList_append, String.toList_inj]

theorem IsBehind.unique {other : String} (h : t.IsBehind rest arg) (h' : t.IsBehind other arg) :
    rest = other := by
  obtain ⟨mark, hmark, heq⟩ := h
  obtain ⟨mark', hmark', heq'⟩ := h'
  obtain rfl := hmark.unique hmark'
  rw [heq, ← String.toList_inj, String.toList_append, String.toList_append] at heq'
  exact String.toList_inj.1 (List.append_cancel_left heq')

theorem IsBehind.not_isPlain (h : t.IsBehind rest arg) : ¬ t.IsPlain arg := by
  obtain ⟨mark, hmark, -⟩ := h
  exact fun hplain => hplain mark hmark.mem hmark.begins

theorem Awaits.isOption (ht : t.WellFormed) (h : t.Awaits arg name) : t.IsOption arg :=
  ⟨name, h.1, ht.name_ne name h.2⟩

theorem IsSeparate.awaits (h : t.IsSeparate (some arg) next) : ∃ name, t.Awaits arg name := by
  obtain ⟨-, option, hoption, hname⟩ := h
  rwa [← Option.some.inj hoption] at hname

theorem IsOption.not_isBare (h : t.IsOption arg) : ¬ t.IsBare arg := by
  obtain ⟨rest, hbehind, hne⟩ := h
  rintro ⟨other, hother, hblank⟩
  exact hne (hbehind.unique hother ▸ hblank)

/-- What is positional is neither an option nor the value of one. -/
theorem not_hasRole_of_positional (h : t.HasRole before arg .positional) :
    ¬ t.IsOption arg ∧ ¬ t.IsSeparate before arg := by
  rcases h with ⟨hplain, hnot⟩ | hbare
  · exact ⟨fun ⟨_, hbehind, _⟩ => hbehind.not_isPlain hplain, hnot⟩
  · obtain ⟨_, hbehind, -⟩ := id hbare
    exact ⟨fun hoption => hoption.not_isBare hbare, fun hvalue => hbehind.not_isPlain hvalue.1⟩

theorem IsOption.not_isSeparate (h : t.IsOption arg) : ¬ t.IsSeparate before arg := by
  obtain ⟨_, hbehind, -⟩ := h
  exact fun hvalue => hbehind.not_isPlain hvalue.1

/-- An argument has one role only. -/
theorem HasRole.unique {role role' : ArgRole} (h : t.HasRole before arg role)
    (h' : t.HasRole before arg role') : role = role' := by
  cases role <;> cases role'
  case positional.positional | option.option | value.value => rfl
  case positional.option => exact absurd h' (not_hasRole_of_positional h).1
  case positional.value => exact absurd h' (not_hasRole_of_positional h).2
  case option.positional => exact absurd h (not_hasRole_of_positional h').1
  case option.value => exact absurd h' (IsOption.not_isSeparate h)
  case value.positional => exact absurd h (not_hasRole_of_positional h').2
  case value.option => exact absurd h (IsOption.not_isSeparate h')

/-! ## Cutting -/

/-- What stands behind the longest prefix that begins the argument. -/
def behind? (t : Tokenizer) (arg : String) : Option String :=
  (dropFirst? t.prefixes arg.toList).map fun (_, rest) => String.ofList rest

/-- The group of an argument that is alone. -/
def single (t : Tokenizer) (arg : String) : ArgGroup :=
  match t.behind? arg with
  | none => .positional arg
  | some rest => if Text.trim rest = "" then .positional arg else .option arg

/-- Whether the second argument is the value of the first one. -/
def answers (t : Tokenizer) (arg next : String) : Bool :=
  match t.behind? arg with
  | none => false
  | some name => t.valueOptions.contains name && t.IsPlain next

/-- The groups of a command line. -/
def groups (t : Tokenizer) : List String → List ArgGroup
  | [] => []
  | [arg] => [t.single arg]
  | arg :: next :: args =>
    if t.answers arg next then .answered arg next :: t.groups args
    else t.single arg :: t.groups (next :: args)

theorem behind?_eq_some_iff (ht : t.WellFormed) : t.behind? arg = some rest ↔ t.IsBehind rest arg := by
  rw [isBehind_iff ht, behind?, Option.map_eq_some_iff]
  constructor
  · rintro ⟨⟨mark, behind⟩, hfirst, rfl⟩
    exact ⟨mark, by rw [hfirst, String.toList_ofList]⟩
  · rintro ⟨mark, hfirst⟩
    exact ⟨_, hfirst, String.ofList_toList⟩

theorem behind?_eq_none_iff : t.behind? arg = none ↔ t.IsPlain arg := by
  rw [behind?, Option.map_eq_none_iff]
  exact dropFirst?_eq_none_iff

theorem answers_iff (ht : t.WellFormed) :
    t.answers arg next = true ↔ t.IsSeparate (some arg) next := by
  unfold answers IsSeparate Awaits
  cases hbehind : t.behind? arg with
  | none =>
    have hplain := behind?_eq_none_iff.1 hbehind
    simp only [Bool.false_eq_true, Option.mem_def, Option.some.injEq, exists_eq_left', false_iff]
    rintro ⟨-, name, hname, -⟩
    exact hname.not_isPlain hplain
  | some rest =>
    have hrest := (behind?_eq_some_iff ht).1 hbehind
    simp only [Bool.and_eq_true, List.contains_iff_mem, decide_eq_true_eq, Option.mem_def,
      Option.some.injEq, exists_eq_left']
    constructor
    · rintro ⟨hmem, hplain⟩
      exact ⟨hplain, rest, hrest, hmem⟩
    · rintro ⟨hplain, name, hname, hmem⟩
      obtain rfl := hname.unique hrest
      exact ⟨hmem, hplain⟩

theorem single_cases (ht : t.WellFormed) (arg : String) :
    ((t.IsPlain arg ∨ t.IsBare arg) ∧ t.single arg = .positional arg) ∨
      (t.IsOption arg ∧ t.single arg = .option arg) := by
  unfold single
  cases hbehind : t.behind? arg with
  | none => exact Or.inl ⟨Or.inl (behind?_eq_none_iff.1 hbehind), rfl⟩
  | some rest =>
    have hrest := (behind?_eq_some_iff ht).1 hbehind
    by_cases hblank : Text.trim rest = ""
    · exact Or.inl ⟨Or.inr ⟨rest, hrest, hblank⟩, if_pos hblank⟩
    · exact Or.inr ⟨⟨rest, hrest, hblank⟩, if_neg hblank⟩

theorem flatMap_args_groups (args : List String) : (t.groups args).flatMap ArgGroup.args = args := by
  have hsingle : ∀ arg, (t.single arg).args = [arg] := by
    intro arg
    unfold single
    split
    · rfl
    · split_ifs <;> rfl
  fun_induction t.groups args with
  | case1 => rfl
  | case2 arg => rw [List.flatMap_singleton, hsingle]
  | case3 arg next args hvalue ih => rw [List.flatMap_cons, ih, ArgGroup.args, List.cons_append,
      List.singleton_append]
  | case4 arg next args hvalue ih => rw [List.flatMap_cons, ih, hsingle, List.singleton_append]

/-! ## The roles of arguments -/

/-- Each argument has its role, where `before` stands before the first one. -/
inductive HasRoles (t : Tokenizer) : Option String → List String → List ArgRole → Prop
  | nil {before : Option String} : HasRoles t before [] []
  | cons {before : Option String} {arg : String} {args : List String} {role : ArgRole}
      {roles : List ArgRole} (h : t.HasRole before arg role) (hrest : HasRoles t (some arg) args roles) :
      HasRoles t before (arg :: args) (role :: roles)

/-- An argument that is not the value of the one before it is alone in its group, or the first of
    two. -/
theorem hasRoles_groups (ht : t.WellFormed) (args : List String)
    (hbefore : ∀ first ∈ args.head?, ¬ t.IsSeparate before first) :
    t.HasRoles before args ((t.groups args).flatMap ArgGroup.roles) := by
  have hsingle : ∀ {before arg}, ¬ t.IsSeparate before arg → ∀ {args roles},
      t.HasRoles (some arg) args roles →
        t.HasRoles before (arg :: args) ((t.single arg).roles ++ roles) := by
    intro before arg hnot args roles hrest
    rcases single_cases ht arg with ⟨hplain | hbare, heq⟩ | ⟨hoption, heq⟩
    · rw [heq]
      exact .cons (Or.inl ⟨hplain, hnot⟩) hrest
    · rw [heq]
      exact .cons (Or.inr hbare) hrest
    · rw [heq]
      exact .cons hoption hrest
  fun_induction t.groups args generalizing before with
  | case1 => exact .nil
  | case2 arg =>
    rw [List.flatMap_singleton, ← List.append_nil (ArgGroup.roles _)]
    exact hsingle (hbefore arg rfl) .nil
  | case3 arg next args hvalue ih =>
    have hseparate := (answers_iff ht).1 hvalue
    obtain ⟨name, hname⟩ := hseparate.awaits
    refine .cons (hname.isOption ht) (.cons hseparate (ih fun first _ hagain => ?_))
    -- a value waits for nothing
    obtain ⟨name', hname'⟩ := hagain.awaits
    exact hname'.1.not_isPlain hseparate.1
  | case4 arg next args hvalue ih =>
    refine hsingle (hbefore arg rfl) (ih fun first hfirst hseparate => hvalue ?_)
    obtain rfl := Option.some.inj hfirst
    exact (answers_iff ht).2 hseparate

theorem HasRoles.getElem?_iff {roles : List ArgRole} (h : t.HasRoles before args roles)
    {front behind : List String} (heq : args = front ++ arg :: behind) (role : ArgRole) :
    roles[front.length]? = some role ↔ t.HasRole (front.getLast?.or before) arg role := by
  induction front generalizing before args roles with
  | nil =>
    subst heq
    cases h with
    | cons h hrest =>
      rw [List.length_nil, List.getElem?_cons_zero, Option.some.injEq]
      constructor
      · rintro rfl
        exact h
      · exact h.unique
  | cons first front ih =>
    subst heq
    cases h with
    | cons h hrest =>
      rw [List.length_cons, List.getElem?_cons_succ, ih hrest rfl, List.getLast?_cons]
      cases front.getLast? <;> rfl

/-! ## What groups come to -/

/-- The item that a group comes to. -/
inductive Means (t : Tokenizer) : ArgGroup → Item → Prop
  | positional {arg : String} (harg : t.IsPlain arg ∨ t.IsBare arg) :
      Means t (.positional arg) (.positional arg)
  | flag {arg name : String} (hbehind : t.IsBehind name arg) (hname : Text.trim name ≠ "")
      (hfree : ∀ option ∈ t.valueOptions, ¬ option.toList <+: name.toList) :
      Means t (.option arg) (.option name none)
  | joined {arg name rest : String} (hbehind : t.IsBehind (name ++ rest) arg)
      (hname : IsLongest t.valueOptions (name ++ rest).toList name) (hrest : rest ≠ "") :
      Means t (.option arg) (.option name (some (t.attachedValue rest.toList)))
  | unanswered {arg name : String} (hname : t.Awaits arg name) :
      Means t (.option arg) (.option name none)
  | answered {arg name value : String} (hname : t.Awaits arg name) (hvalue : t.IsPlain value) :
      Means t (.answered arg value) (.option name (some value))

/-- An argument that is an option is complete, or it waits for a value. -/
theorem marked_of_isBehind (ht : t.WellFormed) (h : t.IsBehind rest arg)
    (hrest : Text.trim rest ≠ "") :
    (t.Awaits arg rest ∧ t.marked arg rest.toList = .waiting rest) ∨
      ∃ item, t.Means (.option arg) item ∧ t.marked arg rest.toList = .complete item := by
  cases hfirst : dropFirst? t.valueOptions rest.toList with
  | none =>
    have hfree := dropFirst?_eq_none_iff.1 hfirst
    exact Or.inr ⟨_, .flag h hrest hfree, marked_flag arg hrest hfree⟩
  | some found =>
    obtain ⟨name, behind⟩ := found
    obtain ⟨hlongest, hsplit⟩ := isLongest_of_dropFirst? ht.valueOptions hfirst
    have heq : rest = name ++ String.ofList behind := by
      rw [← String.toList_inj, hsplit, String.toList_append, String.toList_ofList]
    cases behind with
    | nil =>
      obtain rfl : rest = name := by rw [heq, String.ofList_nil, String.append_empty]
      exact Or.inl ⟨⟨h, hlongest.mem⟩, marked_waiting ht arg hlongest.mem⟩
    | cons c cs =>
      have hmarked : t.marked arg rest.toList =
          .complete (.option name (some (t.attachedValue (c :: cs)))) := by
        unfold marked
        rw [all_isBlank_eq_false hrest List.prefix_rfl, if_neg Bool.false_ne_true, hfirst]
      rw [heq] at h hlongest
      have hmeans := Means.joined h hlongest (by simp)
      rw [String.toList_ofList] at hmeans
      exact Or.inr ⟨_, hmeans, hmarked⟩

/-- An option that waits stays without a value if there is nothing behind it or a prefix begins what
    is. -/
theorem itemsAfter_some_of_not_plain (name : String)
    (h : ∀ next ∈ args.head?, ¬ t.IsPlain next) :
    t.itemsAfter (some name) args = .option name none :: t.itemsAfter none args := by
  cases args with
  | nil => rfl
  | cons next args =>
    cases hfirst : dropFirst? t.prefixes next.toList with
    | none => exact absurd (dropFirst?_eq_none_iff.1 hfirst) (h next rfl)
    | some found =>
      obtain ⟨mark, rest⟩ := found
      cases hmarked : t.marked next rest with
      | complete item =>
        rw [itemsAfter_of_complete hfirst hmarked, itemsAfter_of_complete hfirst hmarked]
        rfl
      | waiting other =>
        rw [itemsAfter_of_waiting hfirst hmarked, itemsAfter_of_waiting hfirst hmarked]
        rfl

theorem itemsAfter_single (ht : t.WellFormed) (arg : String) (args : List String)
    (h : ∀ next ∈ args.head?, ¬ t.IsSeparate (some arg) next) :
    ∃ item, t.Means (t.single arg) item ∧
      t.itemsAfter none (arg :: args) = item :: t.itemsAfter none args := by
  rcases single_cases ht arg with ⟨hplain | ⟨rest, hrest, hblank⟩, heq⟩ | ⟨⟨rest, hrest, hname⟩, heq⟩
  · rw [heq]
    exact ⟨_, .positional (Or.inl hplain), itemsAfter_none_of_plain hplain args⟩
  · obtain ⟨mark, hfirst⟩ := (isBehind_iff ht).1 hrest
    have hmarked : t.marked arg rest.toList = .complete (.positional arg) := by
      unfold marked
      rw [if_pos (List.all_eq_true.2 ((Text.trim_eq_empty_iff rest).1 hblank))]
    rw [heq]
    exact ⟨_, .positional (Or.inr ⟨rest, hrest, hblank⟩),
      itemsAfter_of_complete hfirst hmarked none args⟩
  · obtain ⟨mark, hfirst⟩ := (isBehind_iff ht).1 hrest
    rw [heq]
    rcases marked_of_isBehind ht hrest hname with ⟨hawaits, hmarked⟩ | ⟨item, hitem, hmarked⟩
    · refine ⟨_, .unanswered hawaits, ?_⟩
      rw [itemsAfter_of_waiting hfirst hmarked]
      exact itemsAfter_some_of_not_plain rest fun next hnext hplain =>
        h next hnext ⟨hplain, arg, rfl, rest, hawaits⟩
    · exact ⟨item, hitem, itemsAfter_of_complete hfirst hmarked none args⟩

theorem itemsAfter_answered (ht : t.WellFormed) (h : t.IsSeparate (some arg) next)
    (args : List String) :
    ∃ item, t.Means (.answered arg next) item ∧
      t.itemsAfter none (arg :: next :: args) = item :: t.itemsAfter none args := by
  obtain ⟨name, hname⟩ := h.awaits
  obtain ⟨mark, hfirst⟩ := (isBehind_iff ht).1 hname.1
  refine ⟨_, .answered hname h.1, ?_⟩
  rw [itemsAfter_of_waiting hfirst (marked_waiting ht arg hname.2)]
  exact itemsAfter_some_of_plain h.1 name args

/-- Each group comes to one item, in their order. -/
theorem means_groups (ht : t.WellFormed) (args : List String) :
    List.Forall₂ t.Means (t.groups args) (t.items args) := by
  unfold items
  fun_induction t.groups args with
  | case1 => exact .nil
  | case2 arg =>
    obtain ⟨item, hitem, heq⟩ := itemsAfter_single ht arg [] (by simp)
    rw [heq]
    exact .cons hitem .nil
  | case3 arg next args hvalue ih =>
    obtain ⟨item, hitem, heq⟩ := itemsAfter_answered ht ((answers_iff ht).1 hvalue) args
    rw [heq]
    exact .cons hitem ih
  | case4 arg next args hvalue ih =>
    obtain ⟨item, hitem, heq⟩ := itemsAfter_single ht arg (next :: args) (by
      rintro first hfirst hseparate
      obtain rfl := Option.some.inj hfirst
      exact hvalue ((answers_iff ht).2 hseparate))
    rw [heq]
    exact .cons hitem ih

/-! ## Accounting -/

/-- The name and the value of an option are read off the argument that is the option, or off it and
    the argument behind it. -/
def IsEntry (t : Tokenizer) (arg : String) (entry : String × Option String) : Prop :=
  t.Means (.option arg) (.option entry.1 entry.2) ∨
    ∃ value, t.Means (.answered arg value) (.option entry.1 entry.2)

/-- The groups cut up all of the arguments and say what each of them is, and the items are what they
    come to. -/
structure Accounts (t : Tokenizer) (args : List String) (groups : List ArgGroup)
    (items : List Item) : Prop where
  args_eq : groups.flatMap ArgGroup.args = args
  means : List.Forall₂ t.Means groups items
  role_iff : ∀ front arg behind, args = front ++ arg :: behind → ∀ role,
    (groups.flatMap ArgGroup.roles)[front.length]? = some role ↔
      t.HasRole front.getLast? arg role
  positionals : items.filterMap Item.positional? = groups.filterMap ArgGroup.positional?
  options : List.Forall₂ t.IsEntry (groups.filterMap ArgGroup.option?)
    (items.filterMap Item.option?)
  length_eq : args.length = (items.filterMap Item.positional?).length +
    (items.filterMap Item.option?).length + (groups.flatMap ArgGroup.roles).count .value

theorem positional?_of_means {groups : List ArgGroup} {items : List Item}
    (h : List.Forall₂ t.Means groups items) :
    items.filterMap Item.positional? = groups.filterMap ArgGroup.positional? := by
  induction h with
  | nil => rfl
  | cons hitem _ ih =>
    cases hitem with
    | positional => exact congrArg (_ :: ·) ih
    | flag | joined | unanswered | answered => exact ih

theorem option?_of_means {groups : List ArgGroup} {items : List Item}
    (h : List.Forall₂ t.Means groups items) :
    List.Forall₂ t.IsEntry (groups.filterMap ArgGroup.option?) (items.filterMap Item.option?) := by
  induction h with
  | nil => exact .nil
  | cons hitem _ ih =>
    cases hitem with
    | positional => exact ih
    | flag hbehind hname hfree => exact .cons (Or.inl (.flag hbehind hname hfree)) ih
    | joined hbehind hname hrest => exact .cons (Or.inl (.joined hbehind hname hrest)) ih
    | unanswered hname => exact .cons (Or.inl (.unanswered hname)) ih
    | answered hname hvalue => exact .cons (Or.inr ⟨_, .answered hname hvalue⟩) ih

theorem length_flatMap_args (groups : List ArgGroup) :
    (groups.flatMap ArgGroup.args).length = (groups.filterMap ArgGroup.positional?).length +
      (groups.filterMap ArgGroup.option?).length +
      (groups.flatMap ArgGroup.roles).count .value := by
  induction groups with
  | nil => rfl
  | cons group groups ih =>
    rw [List.flatMap_cons, List.flatMap_cons, List.length_append, List.count_append, ih]
    cases group <;>
      simp [List.filterMap_cons, ArgGroup.args, ArgGroup.roles, ArgGroup.positional?,
        ArgGroup.option?] <;> omega

/-- Every argument is accounted for once: as a positional argument, as an option or as the value of
    the option directly before it. -/
theorem groups_account (ht : t.IsConfigured) (args : List String) :
    t.Accounts args (t.groups args) (t.items args) := by
  have hargs := flatMap_args_groups (t := t) args
  have hmeans := means_groups ht.wellFormed args
  have hroles : t.HasRoles none args ((t.groups args).flatMap ArgGroup.roles) :=
    hasRoles_groups ht.wellFormed args fun first _ h => by simp [IsSeparate] at h
  have hpositionals := positional?_of_means hmeans
  have hoptions := option?_of_means hmeans
  refine ⟨hargs, hmeans, fun front arg behind heq role => ?_, hpositionals, hoptions, ?_⟩
  · rw [hroles.getElem?_iff heq role, Option.or_none]
  · rw [hpositionals, ← hoptions.length_eq, ← length_flatMap_args, hargs]

/-- A command line in which options that wait for a value are followed by one, by a prefix alone, by
    another option and by nothing. -/
def waitingArgs : List String :=
  ["x", "-a", "1", "y", "--app", "-", "z", "+app-id", "--v", "w", "-app-id==q", "-a"]

theorem groups_account_sample : overlappingTokenizer.IsConfigured ∧
    overlappingTokenizer.Accounts waitingArgs
      [.positional "x", .answered "-a" "1", .positional "y", .option "--app", .positional "-",
        .positional "z", .option "+app-id", .option "--v", .positional "w", .option "-app-id==q",
        .option "-a"]
      [.positional "x", .option "a" (some "1"), .positional "y", .option "app" none,
        .positional "-", .positional "z", .option "app-id" none, .option "v" none,
        .positional "w", .option "app-id" (some "q"), .option "a" none] := by
  have hconfigured : overlappingTokenizer.IsConfigured :=
    ((isConfigured_ofValueOptions _).withPrefixes _).withDelimiters _
  exact ⟨hconfigured, groups_account hconfigured waitingArgs⟩

end Tokenizer

end Scaffold
