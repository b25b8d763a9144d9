import Scaffold.Error
import Scaffold.FileSystem.Basic
import Scaffold.Options.Draft

set_option autoImplicit false

/-! # Options of a project

Finalizing a draft fills in what was not given and checks the rest. Every violated condition is a
problem; a draft with problems is refused with all of them, in a fixed order. An orientation or a
scene that means nothing is no problem: it is logged and the default is used. -/

namespace Scaffold

/-- The options that a project is created with. -/
structure ProjectOptions where
  programName : String
  /-- The directory of the project, below the engine root. -/
  projectDir : String
  /-- The caption of the app. -/
  title : String
  appIdentifier : String
  orientation : Orientation
  scene : Scene
  deriving DecidableEq, Repr

/-- The names that the identifier of an app begins with that was not given one. -/
def appIdentifierStart : String := "com.yourcompany"

/-- The identifier of an app that was not given one. -/
def defaultAppIdentifier (programName : String) : String :=
  appIdentifierStart ++ "." ++ programName

/-- The options of a program of which only the name was given. -/
def ProjectOptions.ofProgramName (programName : String) : ProjectOptions where
  programName := programName
  projectDir := programName
  title := programName
  appIdentifier := defaultAppIdentifier programName
  orientation := .default
  scene := .default

/-- The directories that a project is created from and in. -/
structure Roots where
  /-- The project's directory is made in this directory. -/
  engineRoot : String
  /-- Holds the manifest and the template of the project. -/
  templateRoot : String
  deriving DecidableEq, Repr

/-- The roots that are used when none are given. -/
def Roots.default : Roots :=
  ⟨"../..", "Template"⟩

/-! ## Conditions on names -/

/-- Whether the characters are a letter followed by letters and digits, all of them ASCII. -/
def isPlainName : List Char → Bool
  | [] => false
  | c :: cs => c.isAlpha && cs.all Char.isAlphanum

/-- Whether a text is the name of a program. -/
def isProgramName (name : String) : Bool :=
  isPlainName name.toList

/-- Whether a text is the identifier of an app: two or more names joined by dots. -/
def isAppIdentifier (identifier : String) : Bool :=
  let parts := Text.splitChars '.' identifier.toList
  decide (2 ≤ parts.length) && parts.all isPlainName

/-! ## Finalizing -/

/-- A condition that a draft violates. -/
inductive Problem
  | noProgramName
  | badProgramName (name : String)
  | noTitle
  | noAppIdentifier
  | badAppIdentifier (identifier : String)
  | noEngineRoot (path : String)
  | noTemplateRoot (path : String)
  deriving DecidableEq, Repr

/-- How a problem is shown. -/
def Problem.message : Problem → String
  | .noProgramName => "No program name specified"
  | .badProgramName name => "Invalid program name: \"" ++ name ++ "\""
  | .noTitle => "No title specified"
  | .noAppIdentifier => "No app identifier specified"
  | .badAppIdentifier identifier => "Invalid app identifier: \"" ++ identifier ++ "\""
  | .noEngineRoot path => "Engine root directory NOT exists: " ++ path
  | .noTemplateRoot path => "Template data NOT exists: " ++ path

/-- The error that lists problems. -/
def Error.ofProblems (problems : List Problem) : Error :=
  .validation ("; ".intercalate (problems.map Problem.message))

namespace Draft

/-- A given value, trimmed, unless it is blank. -/
def given (value : Option String) : Option String :=
  value.bind Text.nonBlank?

/-- A choice: the default when nothing was given or what was given means nothing. -/
def choice {α : Type} (parse? : String → Option α) (default : α) (value : Option String) : α :=
  match given value with
  | some word => (parse? word).getD default
  | none => default

/-- What is logged about a choice that means nothing. -/
def choiceLog {α : Type} (parse? : String → Option α) (what : String) (value : Option String) :
    List LogLine :=
  match given value with
  | some word => if (parse? word).isSome then [] else [overlayLog.ignored what word]
  | none => []

/-- The program name, or nothing. -/
def finalProgramName (d : Draft) : String :=
  (given d.programName).getD ""

/-- The options that the draft stands for, defaults filled in, valid or not. -/
def options (d : Draft) : ProjectOptions :=
  let programName := d.finalProgramName
  { programName := programName
    projectDir := (given d.projectDir).getD programName
    title := (given d.title).getD programName
    appIdentifier :=
      (given d.appIdentifier).getD
        (if programName = "" then "" else defaultAppIdentifier programName)
    orientation := choice Orientation.parse? .default d.orientation
    scene := choice Scene.parse? .default d.scene }

/-- The roots that the draft stands for, as absolute paths. -/
def roots (d : Draft) (fs : FileSystem) : Roots :=
  let base := FileSystem.pathOf fs.workDir
  { engineRoot := Path.absolute base ((given d.engineRoot).getD Roots.default.engineRoot)
    templateRoot := Path.absolute base ((given d.templateRoot).getD Roots.default.templateRoot) }

/-- The problems of options. -/
def optionProblems (o : ProjectOptions) : List Problem :=
  (if o.programName = "" then [.noProgramName]
    else if isProgramName o.programName then [] else [.badProgramName o.programName]) ++
  (if o.title = "" then [.noTitle] else []) ++
  (if o.appIdentifier = "" then [.noAppIdentifier]
    else if isAppIdentifier o.appIdentifier then [] else [.badAppIdentifier o.appIdentifier])

/-- The problems of roots. -/
def rootProblems (r : Roots) (fs : FileSystem) : List Problem :=
  (if fs.isDirectory r.engineRoot then [] else [.noEngineRoot r.engineRoot]) ++
  (if fs.isDirectory r.templateRoot then [] else [.noTemplateRoot r.templateRoot])

/-- The problems of the draft, in the order in which they are listed. -/
def problems (d : Draft) (fs : FileSystem) : List Problem :=
  optionProblems d.options ++ rootProblems (d.roots fs) fs

/-- The options and roots of a draft without problems. -/
def finalize (d : Draft) (fs : FileSystem) : Except Error (ProjectOptions × Roots) :=
  match d.problems fs with
  | [] => .ok (d.options, d.roots fs)
  | problems => .error (.ofProblems problems)

/-- What is logged when the draft is finalized. -/
def finalizeLog (d : Draft) (fs : FileSystem) : List LogLine :=
  choiceLog Orientation.parse? "orientation" d.orientation ++
    choiceLog Scene.parse? "scene" d.scene ++
    (d.problems fs).map fun problem => ⟨.error, problem.message⟩

end Draft

end Scaffold
