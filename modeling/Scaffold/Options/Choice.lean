import Scaffold.Text.Blank
import Scaffold.Text.Case
import Scaffold.Text.Pieces

set_option autoImplicit false

/-! # Orientation and scene

Two options are choices from a few. Each is read from a word in any case, with blanks around it; an
orientation may also be given by the beginning of its word. A word that means nothing is no
choice. -/

namespace Scaffold

/-- The word that a choice is read from: trimmed and in lower case. -/
def choiceWord (value : String) : String :=
  Text.lower (Text.trim value)

/-- How the app is held. -/
inductive Orientation
  | landscape
  | portrait
  deriving DecidableEq, Repr

namespace Orientation

/-- The orientation that is used when none is chosen. -/
def default : Orientation := .landscape

/-- The words that have to be given in full. -/
def aliases : List (String × Orientation) :=
  [("klandscape", .landscape), ("landscape", .landscape), ("l", .landscape),
    ("horizontal", .landscape), ("h", .landscape),
    ("kportrait", .portrait), ("portrait", .portrait), ("p", .portrait),
    ("vertical", .portrait), ("v", .portrait)]

/-- The words whose beginnings are understood too. The empty word begins them all, so it means the
    first one. -/
def words : List (String × Orientation) :=
  [("horizontal", .landscape), ("vertical", .portrait), ("landscape", .landscape),
    ("portrait", .portrait)]

/-- The orientation that a word means. -/
def ofWord? (word : String) : Option Orientation :=
  match aliases.find? fun entry => entry.1 == word with
  | some entry => some entry.2
  | none =>
    (words.find? fun entry => word.toList.isPrefixOf entry.1.toList).map Prod.snd

/-- Reads an orientation. -/
def parse? (value : String) : Option Orientation :=
  ofWord? (choiceWord value)

end Orientation

/-- How much of a scene the code of a new game has. -/
inductive Scene
  /-- Only the game, without a scene. -/
  | none
  /-- An empty scene. -/
  | emptyScene
  /-- A scene for a user interface. -/
  | uiBaseScene
  deriving DecidableEq, Repr

namespace Scene

/-- The scene that is used when none is chosen. -/
def default : Scene := .emptyScene

/-- The words for the scenes. -/
def words : Scene → List String
  | .none => ["knone", "none", "no", "null", "n", "gameonly", "game-only", "game", "g"]
  | .emptyScene =>
    ["kemptyscene", "emptyscene", "empty", "sceneonly", "scene-only", "scene", "s"]
  | .uiBaseScene =>
    ["kuibasescene", "uibasescene", "ui-base", "uibase", "ui-scene", "uiscene", "ui", "u"]

/-- The scene that a word means. -/
def ofWord? (word : String) : Option Scene :=
  [.none, .emptyScene, .uiBaseScene].find? fun scene => (words scene).contains word

/-- Reads a scene. -/
def parse? (value : String) : Option Scene :=
  ofWord? (choiceWord value)

/-- The section of a manifest that belongs to the scene. -/
def sectionName : Scene → String
  | .none => "None"
  | .emptyScene => "EmptyScene"
  | .uiBaseScene => "UIBaseScene"

end Scene

end Scaffold
