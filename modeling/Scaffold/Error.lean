import Scaffold.FileSystem.Cause

set_option autoImplicit false

/-! # Errors

An error is a setup error or an item error. A setup error ends the creation of a project; an item
error only means that one file or directory was passed over. -/

namespace Scaffold

/-- What goes wrong while a project is set up or created. -/
inductive Error
  /-- A file cannot be accessed. -/
  | access (cause : Cause)
  /-- The manifest cannot be read as text. -/
  | manifest (path : String) (cause : Cause)
  /-- The directory of the project cannot be made. -/
  | projectRoot (path : String) (cause : Cause)
  /-- An options file is missing or cannot be understood. -/
  | config (reason : String)
  /-- The options are not valid. -/
  | validation (reason : String)
  /-- What an operation copies or filters is not in the template. -/
  | sourceNotFound (path : String)
  | copy (source target : String) (cause : Cause)
  | read (path : String) (cause : Cause)
  | write (path : String) (cause : Cause)
  /-- A copy would replace a file and is not allowed to. -/
  | targetExists (path : String)
  deriving DecidableEq, Repr

namespace Error

/-- Whether the error only affects a single item. -/
def isItemError : Error → Bool
  | .sourceNotFound _ | .copy _ _ _ | .read _ _ | .write _ _ | .targetExists _ => true
  | .access _ | .manifest _ _ | .projectRoot _ _ | .config _ | .validation _ => false

/-- How an error is shown. -/
def message : Error → String
  | .access cause => "IO error: " ++ cause.message ++ "."
  | .manifest path cause =>
    "Cannot read template manifest '" ++ path ++ "': " ++ cause.message ++ "."
  | .projectRoot path cause =>
    "Cannot create project directory '" ++ path ++ "': " ++ cause.message ++ "."
  | .config reason => "Configuration error: " ++ reason ++ "."
  | .validation reason => "Validation error: " ++ reason ++ "."
  | .sourceNotFound path => "Template project data not exists: " ++ path
  | .copy source target cause =>
    "An error occurred during copy " ++ source ++ " to " ++ target ++ ": " ++ cause.message
  | .read path cause =>
    "An error occurred during reading file data in " ++ path ++ ": " ++ cause.message
  | .write path cause =>
    "An error occurred during writing to project file in " ++ path ++ ": " ++ cause.message
  | .targetExists path => "Project file already exists, not overwritten: " ++ path

end Error

end Scaffold
