import Scaffold.CommandLine.Arguments
import Scaffold.CommandLine.Usage
import Scaffold.Project.Create

set_option autoImplicit false

/-! # The program

A run of the program is a function of its arguments, of the identifiers made up for the project and
of the file system. It shows the usage when asked to, and otherwise creates a project. It fails if
the options cannot be read or are not valid, or if the creation of the project fails; items that
were skipped are no failure. -/

namespace Scaffold

/-- How a run of the program ends. -/
structure Ending where
  succeeds : Bool
  /-- What was printed. -/
  output : String
  /-- What was printed apart from the output: the log and the errors. -/
  messages : String
  fs : FileSystem

namespace Ending

/-- The code that the program ends with. -/
def exitCode (e : Ending) : Nat :=
  if e.succeeds then 0 else 1

end Ending

/-- The text of the lines of a log that are shown. -/
def logText (verbose : Bool) (log : List LogLine) : String :=
  String.join ((log.filter fun line => line.level.isShown verbose).map (·.render ++ "\n"))

namespace Arguments

/-- The options and roots that the arguments lead to. -/
def finalize (a : Arguments) (fs : FileSystem) : Except Error (ProjectOptions × Roots) :=
  (a.resolve fs).bind (·.finalize fs)

/-- What is logged on the way to the options and roots. -/
def finalizeLog (a : Arguments) (fs : FileSystem) : List LogLine :=
  a.resolveLog fs ++
    match a.resolve fs with
    | .ok draft => draft.finalizeLog fs
    | .error _ => []

/-- What is printed about a project that was created. -/
def summary (plan : ProjectPlan) (report : Report) : String :=
  (if report.skipped.isEmpty then ""
    else toString report.skipped.length ++ " template item(s) skipped, see warnings above.\n") ++
  "Created a new game project [" ++ plan.options.title ++ "] in " ++ plan.projectRoot ++ ".\n"

/-- Creates a project for the arguments. -/
def createProject (a : Arguments) (plan : ProjectPlan) (earlier : List LogLine) (fs : FileSystem) :
    Ending :=
  let creation := plan.create fs
  let log := logText a.verbose (earlier ++ creation.log)
  match creation.result with
  | .error error => ⟨false, "Creating project ...\n", log ++ error.message ++ "\n", creation.fs⟩
  | .ok report => ⟨true, "Creating project ...\n" ++ summary plan report, log, creation.fs⟩

/-- Runs the program on its arguments. -/
def run (a : Arguments) (ids : ProjectIds) (fs : FileSystem) : Ending :=
  if a.help then ⟨true, usage, "", fs⟩
  else
    let log := a.ignoredLog ++ a.finalizeLog fs
    match a.finalize fs with
    | .error error => ⟨false, "", logText a.verbose log ++ usage ++ error.message ++ "\n", fs⟩
    | .ok (options, roots) => a.createProject ⟨options, roots, ids, a.force⟩ log fs

end Arguments

end Scaffold
