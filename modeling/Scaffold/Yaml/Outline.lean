import Scaffold.Keyed
import Scaffold.Yaml.Event

set_option autoImplicit false

/-! # Outlines of YAML documents

An outline tells a document with its aliases followed. An alias of a scalar is that scalar; an alias
of a collection stays a single entry, so an outline says that a collection stands there, but not
what is in it.

Anchors are followed by number. The number of an anchor is that of the names that were anchored
before it, each counted once; an alias has the number that its name was given last, and refers to
the last node of the document that was given this number. As long as no name is anchored twice these
are the nodes that the names say. -/

namespace Scaffold.Yaml

/-- The name that an event is anchored under. -/
def Event.anchor? : Event → Option (List Char)
  | .scalar anchor _ | .sequenceStart anchor | .mappingStart anchor => anchor
  | .alias _ | .sequenceEnd | .mappingEnd => none

/-- An event with the number of its anchor, or of the anchor that it is an alias of. -/
structure Numbered where
  event : Event
  number : Option Nat

/-- Numbers the anchors and aliases. An alias of a name that was not anchored before it is
    refused. -/
def numbered? (numbers : Keyed (List Char) Nat) : List Event → Option (List Numbered)
  | [] => some []
  | .alias name :: events =>
    match numbers.get? name with
    | none => none
    | some number => (numbered? numbers events).map (⟨.alias name, some number⟩ :: ·)
  | event :: events =>
    match event.anchor? with
    | none => (numbered? numbers events).map (⟨event, none⟩ :: ·)
    | some name =>
      (numbered? (numbers.insert name numbers.size) events).map
        (⟨event, some numbers.size⟩ :: ·)

/-- An entry of an outline. -/
inductive Entry
  /-- A scalar, or an alias of one. -/
  | scalar (scalar : Scalar)
  /-- An alias of a collection. -/
  | reference
  | sequenceStart
  | mappingStart
  | collectionEnd
  deriving DecidableEq

/-- The scalar of an entry. -/
def Entry.scalar? : Entry → Option Scalar
  | .scalar content => some content
  | _ => none

/-- The first event of the last node that was given a number. -/
def target? (numbered : List Numbered) (number : Nat) : Option Event :=
  (numbered.reverse.find? fun n => n.number = some number && n.event.anchor?.isSome).map (·.event)

/-- The entry of an event among numbered ones. -/
def Numbered.entry (all : List Numbered) (n : Numbered) : Entry :=
  match n.event with
  | .scalar _ scalar => .scalar scalar
  | .sequenceStart _ => .sequenceStart
  | .mappingStart _ => .mappingStart
  | .sequenceEnd | .mappingEnd => .collectionEnd
  | .alias _ =>
    match n.number.bind (target? all) with
    | some (.scalar _ scalar) => .scalar scalar
    | _ => .reference

/-- The outline of a document. -/
def outline? (events : List Event) : Option (List Entry) :=
  (numbered? .empty events).map fun numbered => numbered.map (Numbered.entry numbered)

/-- The entries behind the node that they begin with, inside `depth` further collections. -/
def behindNode : Nat → List Entry → List Entry
  | _, [] => []
  | depth, .sequenceStart :: entries | depth, .mappingStart :: entries =>
    behindNode (depth + 1) entries
  | 0, _ :: entries => entries
  | 1, .collectionEnd :: entries => entries
  | depth + 1, .collectionEnd :: entries => behindNode depth entries
  | depth + 1, _ :: entries => behindNode (depth + 1) entries

end Scaffold.Yaml
