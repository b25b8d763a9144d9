import Scaffold.CommandLine.Ranked
import Scaffold.Text.Blank

set_option autoImplicit false

/-! # Cutting up a command line

A tokenizer tells which arguments of a command line are options. An option begins with one of the
prefixes. Options that take a value are registered; the value stands in the same argument, behind a
delimiter or not, or is the next argument unless that begins with a prefix too. -/

namespace Scaffold

/-- What one argument of a command line, or two of them, come to. -/
inductive Item
  | positional (text : String)
  /-- An option; its value is missing if it takes none or none was given. -/
  | option (name : String) (value : Option String)
  deriving DecidableEq, Repr

namespace Item

/-- The text of a positional argument. -/
def positional? : Item → Option String
  | .positional text => some text
  | .option _ _ => none

/-- The name and the value of an option. -/
def option? : Item → Option (String × Option String)
  | .positional _ => none
  | .option name value => some (name, value)

end Item

/-- How a command line is cut up. All three lists are ranked. -/
structure Tokenizer where
  /-- The names of the options that take a value. -/
  valueOptions : List String
  prefixes : List String
  delimiters : List String
  deriving DecidableEq, Repr

namespace Tokenizer

/-- A tokenizer without options that take a value. -/
def default : Tokenizer where
  valueOptions := []
  prefixes := Ranked.ofList ["-", "--", "/"]
  delimiters := Ranked.ofList ["=", ":"]

/-- Replaces the prefixes; empty ones are ignored. -/
def withPrefixes (t : Tokenizer) (prefixes : List String) : Tokenizer :=
  { t with prefixes := Ranked.ofList prefixes }

/-- Replaces the delimiters; empty ones are ignored. -/
def withDelimiters (t : Tokenizer) (delimiters : List String) : Tokenizer :=
  { t with delimiters := Ranked.ofList delimiters }

/-- Registers an option that takes a value; a blank name is ignored. -/
def register (t : Tokenizer) (name : String) : Tokenizer :=
  match Text.nonBlank? name with
  | none => t
  | some _ => { t with valueOptions := Ranked.add t.valueOptions name }

/-- Takes back the registration of an option. -/
def unregister (t : Tokenizer) (name : String) : Tokenizer :=
  { t with valueOptions := t.valueOptions.filter (· != name) }

/-- A tokenizer that knows options that take a value. -/
def ofValueOptions (names : List String) : Tokenizer :=
  names.foldl register default

/-! ## Reading arguments -/

/-- The value behind the name of an option in the same argument. -/
def attachedValue (t : Tokenizer) (rest : List Char) : String :=
  match Ranked.dropFirst? t.delimiters rest with
  | some (_, value) => String.ofList value
  | none => String.ofList rest

/-- What an argument means that begins with a prefix. -/
inductive Marked
  | complete (item : Item)
  /-- An option that waits for its value. -/
  | waiting (name : String)
  deriving DecidableEq, Repr

/-- The meaning of an argument of which `rest` stands behind the prefix. A prefix alone is a
    positional argument. -/
def marked (t : Tokenizer) (arg : String) (rest : List Char) : Marked :=
  if rest.all Text.isBlank then .complete (.positional arg)
  else
    match Ranked.dropFirst? t.valueOptions rest with
    | none => .complete (.option (String.ofList rest) none)
    | some (name, []) => .waiting name
    | some (name, value) => .complete (.option name (some (t.attachedValue value)))

/-- The option that waited for a value and got none. -/
def unanswered : Option String → List Item
  | none => []
  | some name => [.option name none]

/-- The items of the arguments behind an option that waits for its value, if one does. -/
def itemsAfter (t : Tokenizer) : Option String → List String → List Item
  | waiting, [] => unanswered waiting
  | waiting, arg :: args =>
    match Ranked.dropFirst? t.prefixes arg.toList with
    | some (_, rest) =>
      unanswered waiting ++
        match t.marked arg rest with
        | .complete item => item :: t.itemsAfter none args
        | .waiting name => t.itemsAfter (some name) args
    | none =>
      match waiting with
      | some name => .option name (some arg) :: t.itemsAfter none args
      | none => .positional arg :: t.itemsAfter none args

/-- The items of a command line. -/
def items (t : Tokenizer) (args : List String) : List Item :=
  t.itemsAfter none args

end Tokenizer

end Scaffold
