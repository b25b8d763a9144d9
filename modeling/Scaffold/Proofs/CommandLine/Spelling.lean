import Scaffold.Proofs.CommandLine.Tokenizer

set_option autoImplicit false

/-! # Spellings of items

An item can be written in more than one way: an option behind any prefix, and its value in the same
argument or in the next one. Cutting up a command line undoes writing it, whichever spellings were
chosen (`items_flatMap_args`). A spelling is read from an argument with nothing waited for and
leaves nothing waited for, so it does not matter what stands next to it. -/

namespace Scaffold

/-- How an item is written. -/
inductive Spelling
  | positional (text : String)
  /-- A flag behind a prefix. -/
  | flag (mark name : String)
  /-- An option with its value behind a delimiter. -/
  | joined (mark name delimiter value : String)
  /-- An option with its value in the next argument. -/
  | apart (mark name value : String)
  deriving DecidableEq, Repr

namespace Spelling

/-- The arguments that are written. -/
def args : Spelling → List String
  | .positional text => [text]
  | .flag mark name => [mark ++ name]
  | .joined mark name delimiter value => [mark ++ (name ++ delimiter ++ value)]
  | .apart mark name value => [mark ++ name, value]

/-- The item that is meant. -/
def item : Spelling → Item
  | .positional text => .positional text
  | .flag _ name => .option name none
  | .joined _ name _ value | .apart _ name value => .option name (some value)

end Spelling

namespace Tokenizer

open Ranked

variable {t : Tokenizer}

/-- The spellings that are understood. The prefix, the name and the delimiter have to be the longest
    ones that could be read in their places. -/
inductive Admits (t : Tokenizer) : Spelling → Prop
  | positional {text : String} (hplain : t.IsPlain text) : Admits t (.positional text)
  | flag {mark name : String} (hmark : IsLongest t.prefixes (mark ++ name).toList mark)
      (hname : Text.trim name ≠ "")
      (hfree : ∀ option ∈ t.valueOptions, ¬ option.toList <+: name.toList) :
      Admits t (.flag mark name)
  | joined {mark name delimiter value : String}
      (hmark : IsLongest t.prefixes (mark ++ (name ++ delimiter ++ value)).toList mark)
      (hname : IsLongest t.valueOptions (name ++ delimiter ++ value).toList name)
      (hdelimiter : IsLongest t.delimiters (delimiter ++ value).toList delimiter) :
      Admits t (.joined mark name delimiter value)
  | apart {mark name value : String} (hmark : IsLongest t.prefixes (mark ++ name).toList mark)
      (hname : name ∈ t.valueOptions) (hvalue : t.IsPlain value) : Admits t (.apart mark name value)

theorem dropFirst?_mark (ht : t.WellFormed) {mark rest : String}
    (h : IsLongest t.prefixes (mark ++ rest).toList mark) :
    dropFirst? t.prefixes (mark ++ rest).toList = some (mark, rest.toList) :=
  (dropFirst?_eq_some_iff ht.prefixes).2 ⟨h, String.toList_append⟩

/-- One item is read back, and the arguments behind it are read as if they came first. -/
theorem itemsAfter_args_append (ht : t.WellFormed) {spelling : Spelling}
    (h : t.Admits spelling) (args : List String) :
    t.itemsAfter none (spelling.args ++ args) = spelling.item :: t.itemsAfter none args := by
  cases h with
  | positional hplain => exact itemsAfter_none_of_plain hplain args
  | @flag mark name hmark hname hfree =>
    show t.itemsAfter none ((mark ++ name) :: args) = _
    exact itemsAfter_of_complete (dropFirst?_mark ht hmark) (marked_flag _ hname hfree) none args
  | @joined mark name delimiter value hmark hname hdelimiter =>
    show t.itemsAfter none ((mark ++ (name ++ delimiter ++ value)) :: args) = _
    exact itemsAfter_of_complete (dropFirst?_mark ht hmark) (marked_joined ht _ hname hdelimiter)
      none args
  | @apart mark name value hmark hname hvalue =>
    show t.itemsAfter none ((mark ++ name) :: value :: args) = _
    rw [itemsAfter_of_waiting (dropFirst?_mark ht hmark) (marked_waiting ht _ hname)]
    exact itemsAfter_some_of_plain hvalue name args

/-- Cutting up written items gives the items back, in their order. -/
theorem items_flatMap_args (ht : t.IsConfigured) {spellings : List Spelling}
    (h : ∀ spelling ∈ spellings, t.Admits spelling) :
    t.items (spellings.flatMap Spelling.args) = spellings.map Spelling.item := by
  unfold items
  induction spellings with
  | nil => rfl
  | cons spelling spellings ih =>
    have hfirst := h spelling List.mem_cons_self
    have hrest := ih fun other hother => h other (List.mem_cons_of_mem spelling hother)
    rw [List.flatMap_cons, itemsAfter_args_append ht.wellFormed hfirst, hrest, List.map_cons]

/-! ## Names that begin one another -/

/-- A tokenizer in which names, prefixes and delimiters begin one another. -/
def overlappingTokenizer : Tokenizer :=
  ((ofValueOptions ["a", "app", "app-id"]).withPrefixes ["-", "--", "+"]).withDelimiters ["=", "=="]

/-- Every spelling once, with empty values and with a value that begins like a delimiter. -/
def everySpelling : List Spelling :=
  [.apart "-" "a" "", .joined "--" "app" "=" "", .flag "+" "verbose", .positional "x",
    .joined "-" "app-id" "==" "=-y"]

theorem everySpelling_admitted :
    ∀ spelling ∈ everySpelling, overlappingTokenizer.Admits spelling := by
  intro spelling hspelling
  simp only [everySpelling, List.mem_cons, List.not_mem_nil, or_false] at hspelling
  rcases hspelling with rfl | rfl | rfl | rfl | rfl
  · exact .apart ⟨by decide, by decide, by decide⟩ (by decide) (by decide)
  · exact .joined ⟨by decide, by decide, by decide⟩ ⟨by decide, by decide, by decide⟩
      ⟨by decide, by decide, by decide⟩
  · exact .flag ⟨by decide, by decide, by decide⟩ (by decide) (by decide)
  · exact .positional (by decide)
  · exact .joined ⟨by decide, by decide, by decide⟩ ⟨by decide, by decide, by decide⟩
      ⟨by decide, by decide, by decide⟩

theorem items_flatMap_args_sample : overlappingTokenizer.IsConfigured ∧
    (∀ spelling ∈ everySpelling, overlappingTokenizer.Admits spelling) ∧
    overlappingTokenizer.items ["-a", "", "--app=", "+verbose", "x", "-app-id===-y"] =
      [.option "a" (some ""), .option "app" (some ""), .option "verbose" none, .positional "x",
        .option "app-id" (some "=-y")] := by
  have hconfigured : overlappingTokenizer.IsConfigured :=
    ((isConfigured_ofValueOptions _).withPrefixes _).withDelimiters _
  have hargs : ["-a", "", "--app=", "+verbose", "x", "-app-id===-y"] =
      everySpelling.flatMap Spelling.args := by
    decide
  refine ⟨hconfigured, everySpelling_admitted, ?_⟩
  rw [hargs, items_flatMap_args hconfigured everySpelling_admitted]
  rfl

end Tokenizer

end Scaffold
