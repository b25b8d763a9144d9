import Scaffold.Keyed
import Scaffold.Text.Case

set_option autoImplicit false

/-! # Variables

A variable table gives texts to names. Names are compared in upper case, so they are stored and
looked up that way. Every table starts out with one variable, the opener, whose name and value are
both the text that opens a reference: a reference to it writes an opener that is not read again.

A reference asks for a variable by an *access*, `NAME` or `NAME:MODIFIERS`. Each modifier letter
asks for a change of case, and the changes are made in the order of `CaseChange.all` however the
letters stand. -/

namespace Scaffold

/-- A change of case that a modifier letter asks for. -/
inductive CaseChange
  | upper
  | lower
  deriving DecidableEq, Repr

namespace CaseChange

/-- The changes in the order in which they are made. -/
def all : List CaseChange :=
  [.upper, .lower]

/-- The letter that asks for the change. -/
def letter : CaseChange → Char
  | .upper => 'U'
  | .lower => 'L'

/-- The text after the change. -/
def apply : CaseChange → String → String
  | .upper, s => Text.upper s
  | .lower, s => Text.lower s

/-- The changes that the modifier letters ask for, in the order in which they are made. -/
def requested (modifiers : List Char) : List CaseChange :=
  all.filter fun change => modifiers.contains change.letter

end CaseChange

/-- The values of variables, by their names in upper case. -/
structure VariableTable where
  values : Keyed String String
  deriving DecidableEq

namespace VariableTable

/-- The name of the variable that stands for the opener of a reference, and its value. -/
def opener : String := "$\x7b\x7b"

/-- The table that holds the opener alone. -/
def initial : VariableTable :=
  ⟨Keyed.empty.insert opener opener⟩

/-- Sets the variable `name`. -/
def set (vars : VariableTable) (name value : String) : VariableTable :=
  ⟨vars.values.insert (Text.upper name) value⟩

/-- Sets one variable after the other. -/
def setAll (vars : VariableTable) (assignments : List (String × String)) : VariableTable :=
  assignments.foldl (fun vars (name, value) => vars.set name value) vars

/-- The value of the variable `name`. -/
def get? (vars : VariableTable) (name : String) : Option String :=
  vars.values.get? (Text.upper name)

/-- The number of variables, the opener included. -/
def size (vars : VariableTable) : Nat :=
  vars.values.size

/-- The name and the modifiers of an access: what stands before its first colon and after it. -/
def accessParts (access : List Char) : List Char × List Char :=
  (access.takeWhile (· != ':'), (access.dropWhile (· != ':')).drop 1)

/-- The text that an access stands for, if there is such a variable. -/
def resolve (vars : VariableTable) (access : String) : Option String :=
  let (name, modifiers) := accessParts access.toList
  (vars.get? (String.ofList name)).map fun value =>
    (CaseChange.requested modifiers).foldl (fun text change => change.apply text) value

end VariableTable

end Scaffold
