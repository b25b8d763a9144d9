import Scaffold.FileSystem.Basic
import Scaffold.Manifest.Basic
import Scaffold.Run.Event

set_option autoImplicit false

/-! # Running operations

A runner brings what its operations name from the template directory to the output directory. An
item that fails never ends a run: it is skipped, and the run goes on.

A directory is copied depth first. It is listed, in the order of its names, when it is reached and
before its copy is made; what it holds afterwards does not matter. Directories inside the copied one
are reached by longer and longer paths, and the system refuses to list a directory whose path is too
long, so the copying ends even where a directory is copied into itself. -/

namespace Scaffold

/-- Does something to the file system and tells what happened. -/
abbrev Step := FileSystem → List Event × FileSystem

/-- Does one step after the other. -/
def Step.seq : List Step → Step
  | [], fs => ([], fs)
  | step :: steps, fs =>
    let (events, fs) := step fs
    let (later, fs) := Step.seq steps fs
    (events ++ later, fs)

/-- The extensions of the source and header files of C++. -/
def markExtensions : List String :=
  ["cpp", "h"]

/-- Whether a filtered file at the path begins with a byte order mark: its extension is that of a
    source or header file of C++, in upper or lower case. -/
def needsMark (path : String) : Bool :=
  match Path.extension? path with
  | none => false
  | some extension =>
    markExtensions.contains (String.ofList (extension.toList.map Char.toLower))

/-- The two roots of a run, and how it goes about its work. -/
structure Runner where
  /-- Applied to the texts of filtered files. -/
  filter : TextFilter
  /-- The path that sources are relative to. -/
  templateRoot : String
  /-- The path that targets are relative to. -/
  outputRoot : String
  /-- Whether copies may replace files. Filtered files always may. -/
  overwrite : Bool

namespace Runner

/-- Copies a file as it is, after making the directory for the copy. -/
def copyBytes (r : Runner) (source target : String) : Step := fun fs =>
  if !r.overwrite && fs.isThere target then ([.skipped (.targetExists target)], fs)
  else
    match fs.makeParent target with
    | (.error cause, fs) => ([.skipped (.copy source target cause)], fs)
    | (.ok (), fs) =>
      match fs.copy source target with
      | (.error cause, fs) => ([.skipped (.copy source target cause)], fs)
      | (.ok (), fs) => ([.copied target], fs)

/-- Copies a file that an operation names. -/
def copyFile (r : Runner) (source target : String) : Step := fun fs =>
  if fs.isFile source then r.copyBytes source target fs
  else ([.skipped (.sourceNotFound source)], fs)

/-- The text of a file that is to be filtered, without a byte order mark. -/
def readSource (fs : FileSystem) (source : String) : Except Cause String :=
  match fs.read source with
  | .error cause => .error cause
  | .ok bytes =>
    match Utf8.decode (Utf8.dropMark bytes) with
    | .ok text => .ok text
    | .error fault => .error (.undecodable fault)

/-- The bytes of a filtered text at the path `target`. -/
def filteredBytes (r : Runner) (target text : String) : ByteArray :=
  (if needsMark target then Utf8.mark else .empty) ++ (r.filter text).toUTF8

/-- Writes the filtered text of a file, after making the directory for it. -/
def filterFile (r : Runner) (source target : String) : Step := fun fs =>
  if fs.isFile source then
    match readSource fs source with
    | .error cause => ([.skipped (.read source cause)], fs)
    | .ok text =>
      match fs.makeParent target with
      | (.error cause, fs) => ([.skipped (.write target cause)], fs)
      | (.ok (), fs) =>
        match fs.write target (r.filteredBytes target text) with
        | (.error cause, fs) => ([.skipped (.write target cause)], fs)
        | (.ok (), fs) => ([.wrote target], fs)
  else ([.skipped (.sourceNotFound source)], fs)

/-- Makes the copy of a directory, without what is in it. -/
def makeCopy (target : String) : Step := fun fs =>
  match fs.makeDirectories target with
  | (.error cause, fs) => ([.skipped (.write target cause)], fs)
  | (.ok (), fs) => ([], fs)

/-- Copies the directory at the path `source` to the path `target`. The directories inside it lie at
    most `room` levels deep, since each level makes the path longer. -/
def copyDirectory (r : Runner) : Nat → (source target : String) → Step
  | room, source, target => fun fs =>
    match fs.list source with
    | .error cause =>
      Step.seq [makeCopy target, fun fs => ([.skipped (.read source (.listing source cause))], fs)]
        fs
    | .ok entries =>
      match room with
      | 0 => makeCopy target fs
      | room + 1 =>
        Step.seq
          (makeCopy target :: entries.map fun (name, isDirectory) =>
            if isDirectory then
              r.copyDirectory room (Path.join source name) (Path.join target name)
            else r.copyBytes (Path.join source name) (Path.join target name))
          fs

/-- Copies a directory that an operation names, with everything below it. -/
def copySubtree (r : Runner) (source target : String) : Step := fun fs =>
  if fs.isDirectory source then
    r.copyDirectory FileSystem.pathLimit source (Path.join target "") fs
  else ([.skipped (.sourceNotFound source)], fs)

/-- Runs one operation. -/
def runOperation (r : Runner) (op : Operation) : Step :=
  let source := op.transfer.source.below r.templateRoot
  let target := op.transfer.target.below r.outputRoot
  let work :=
    match op.kind with
    | .copySubtree => r.copySubtree source target
    | .copyFile => r.copyFile source target
    | .filterFile => r.filterFile source target
  Step.seq [fun fs => ([.started op], fs), work]

/-- Runs the operations of a set, kind by kind. -/
def run (r : Runner) (set : OperationSet) : Step :=
  Step.seq (set.operations.map r.runOperation)

end Runner

end Scaffold
