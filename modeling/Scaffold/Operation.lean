import Scaffold.PathSpec

set_option autoImplicit false

/-! # Operations

An operation brings something from the template to the project: a directory with all that is in it,
a file as it is, or a file with its references replaced. The operations of a set are queued by kind
and always run kind by kind, whatever order they were declared in. -/

namespace Scaffold

/-- Where an operation takes something from and where it puts it, each relative to its root. -/
structure Transfer where
  source : PathSpec
  target : PathSpec
  deriving DecidableEq, Repr

/-- What an operation does. -/
inductive OperationKind
  /-- Copies a directory and everything below it. -/
  | copySubtree
  /-- Copies a file as it is. -/
  | copyFile
  /-- Copies a text file and replaces the references in it. -/
  | filterFile
  deriving DecidableEq, Repr

/-- The name of the kind, as it is shown. -/
def OperationKind.name : OperationKind → String
  | .copySubtree => "CopySubtree"
  | .copyFile => "CopyFile"
  | .filterFile => "FilterFile"

/-- One operation. -/
structure Operation where
  kind : OperationKind
  transfer : Transfer
  deriving DecidableEq, Repr

namespace Operation

/-- The kind of an operation from its code and its source as written. A copy whose source ends in a
    slash and a star copies the directory before them. -/
def kind? (code source : String) : Option OperationKind :=
  if code = "C" then
    if ['*', '/'].isPrefixOf source.toList.reverse then some .copySubtree else some .copyFile
  else if code = "F" then some .filterFile
  else none

/-- Reads an operation from a code, a source and perhaps a target. Without a target the source's
    path is the target too; further tokens are ignored. -/
def ofTokens? : List String → Option Operation
  | code :: source :: rest =>
    match kind? code source, PathSpec.parse? source with
    | some kind, some sourceSpec =>
      match rest with
      | [] => some ⟨kind, sourceSpec, sourceSpec⟩
      | target :: _ =>
        match PathSpec.parse? target with
        | some targetSpec => some ⟨kind, sourceSpec, targetSpec⟩
        | none => none
    | _, _ => none
  | _ => none

end Operation

/-- Operations, queued by kind. -/
structure OperationSet where
  subtreeCopies : List Transfer
  fileCopies : List Transfer
  fileFilters : List Transfer
  deriving DecidableEq, Repr

namespace OperationSet

/-- No operations. -/
def empty : OperationSet :=
  ⟨[], [], []⟩

/-- Puts an operation at the end of its queue. -/
def push (set : OperationSet) (op : Operation) : OperationSet :=
  match op.kind with
  | .copySubtree => { set with subtreeCopies := set.subtreeCopies ++ [op.transfer] }
  | .copyFile => { set with fileCopies := set.fileCopies ++ [op.transfer] }
  | .filterFile => { set with fileFilters := set.fileFilters ++ [op.transfer] }

/-- The queue of a kind. -/
def queue (set : OperationSet) : OperationKind → List Transfer
  | .copySubtree => set.subtreeCopies
  | .copyFile => set.fileCopies
  | .filterFile => set.fileFilters

/-- All operations in the order in which they run: the directories, then the copied files, then the
    filtered files. -/
def operations (set : OperationSet) : List Operation :=
  set.subtreeCopies.map (⟨.copySubtree, ·⟩) ++ set.fileCopies.map (⟨.copyFile, ·⟩) ++
    set.fileFilters.map (⟨.filterFile, ·⟩)

/-- The number of operations. -/
def size (set : OperationSet) : Nat :=
  set.subtreeCopies.length + set.fileCopies.length + set.fileFilters.length

end OperationSet

end Scaffold
