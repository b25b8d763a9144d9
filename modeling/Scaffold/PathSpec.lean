import Scaffold.Text.Blank
import Scaffold.FileSystem.Path

set_option autoImplicit false

/-! # Path specifications

A manifest names files and directories by paths relative to a root. Such a path is read as its
segments: the trimmed pieces between slashes that are neither empty nor a star. The root itself
cannot be named, so a path without a segment is none. -/

namespace Scaffold

/-- A path relative to a root, by its segments. -/
structure PathSpec where
  segments : List String
  deriving DecidableEq, Repr

namespace PathSpec

/-- Whether a trimmed piece is a segment. -/
def isSegment (piece : List Char) : Bool :=
  piece != [] && piece != ['*']

/-- The segments of a path. -/
def segmentChars (path : List Char) : List (List Char) :=
  ((Text.splitChars '/' path).map Text.trimChars).filter isSegment

/-- Reads a path. -/
def parse? (path : String) : Option PathSpec :=
  match segmentChars path.toList with
  | [] => none
  | segments => some ⟨segments.map String.ofList⟩

/-- The segments with slashes between them. -/
def display (spec : PathSpec) : String :=
  "/".intercalate spec.segments

/-- The path text of the path below `base`. -/
def below (base : String) (spec : PathSpec) : String :=
  spec.segments.foldl Path.join base

end PathSpec

end Scaffold
