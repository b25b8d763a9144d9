import Scaffold.CommandLine.Program

set_option autoImplicit false

/-! # The program on a disk

The program runs on a picture of the disk, which holds what the run can come across. What the run
changes in the picture is then changed on the disk. -/

namespace Scaffold.Disk

/-- What the disk holds at a place. What is in a directory is only read if `deep`. -/
partial def read? (deep : Bool) (place : List String) : IO (Option Node) := do
  let path := (← IO.currentDir) / FileSystem.pathOf place
  try
    match (← path.metadata).type with
    | .file => return some (.file (← IO.FS.readBinFile path))
    | .dir =>
      let entries ← if deep then path.readDir else pure #[]
      let children ← entries.toList.filterMapM fun entry => do
        return (← read? deep (place ++ [entry.fileName])).map (entry.fileName, ·)
      return some (.directory children)
    | _ => return none
  catch _ => return none

/-- Adds to a picture what the disk holds on the way along the pieces of a path, and at its end
    everything if `deep`. -/
def follow (deep : Bool) (here : List String) : List String → FileSystem → IO FileSystem
  | [], fs => do
    match ← if deep then read? true here else pure none with
    | some node => return fs.put here node
    | none => return fs
  | piece :: pieces, fs => do
    if piece = "." then follow deep here pieces fs
    else if piece = ".." then follow deep here.dropLast pieces fs
    else
      let place := here ++ [piece]
      if (fs.lookup place).isSome then follow deep place pieces fs
      else
        match ← read? false place with
        | some node => follow deep place pieces (fs.put place node)
        | none => return fs

/-- Adds to a picture what the disk holds along a path. -/
def add (deep : Bool) (fs : FileSystem) (path : String) : IO FileSystem :=
  follow deep (if Path.isAbsolute path.toList then [] else fs.workDir) (FileSystem.pieces path) fs

/-- Adds to a picture what the disk holds along the paths of an operation. -/
def addOperation (plan : ProjectPlan) (fs : FileSystem) (op : Operation) : IO FileSystem := do
  let deep := op.kind == .copySubtree
  let fs ← add deep fs (op.transfer.source.below plan.templateDir)
  add deep fs (op.transfer.target.below plan.projectRoot)

/-- Adds to a picture what the creation of a project can come across. -/
def addProject (plan : ProjectPlan) (fs : FileSystem) : IO FileSystem := do
  let fs ← [plan.roots.engineRoot, plan.roots.templateRoot, plan.manifestPath, plan.templateDir,
    plan.projectRoot].foldlM (add false) fs
  match Manifest.load plan.filter plan.manifestPath fs with
  | .error _ => return fs
  | .ok manifest =>
    let set := (manifest.section? plan.options.scene.sectionName).getD .empty
    (manifest.main.operations ++ set.operations).foldlM (addOperation plan) fs

/-- A picture of what a run of the program can come across. -/
def picture (a : Arguments) (ids : ProjectIds) : IO FileSystem := do
  let workDir := (← IO.currentDir).toString
  let fs ← ([workDir] ++ a.config.toList).foldlM (add false) ⟨[], FileSystem.pieces workDir⟩
  match a.resolve fs with
  | .error _ => return fs
  | .ok draft => addProject ⟨draft.options, draft.roots fs, ids, a.force⟩ fs

/-- Makes the disk hold a node at a place, of which it holds what the picture `before` shows. -/
partial def save (before : FileSystem) (place : List String) : Node → IO Unit
  | .file bytes => do
    unless before.lookup place == some (.file bytes) do
      IO.FS.writeBinFile (FileSystem.pathOf place) bytes
  | .directory children => do
    if (before.lookup place).isNone then IO.FS.createDir (FileSystem.pathOf place)
    for (name, child) in children do
      save before (place ++ [name]) child

end Scaffold.Disk

open Scaffold in
/-- Runs the program. -/
def main (args : List String) : IO UInt32 := do
  let arguments := Arguments.ofCommandLine args
  let ids := ProjectIds.ofBytes (← IO.getRandomBytes 64).toList
  let before ← Disk.picture arguments ids
  let ending := arguments.run ids before
  Disk.save before [] (.directory ending.fs.root)
  IO.print ending.output
  IO.eprint ending.messages
  return ending.exitCode.toUInt32
