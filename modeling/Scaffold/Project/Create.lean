import Scaffold.Manifest.File
import Scaffold.Project.Variables
import Scaffold.Run.Basic
import Scaffold.Template

set_option autoImplicit false

/-! # Creating a project

A project is created from the manifest and the files below the template root, into its directory
below the engine root. The manifest's main set runs first, then the set of the section that belongs
to the scene. Only a manifest that cannot be read and a directory that cannot be made stop the
creation, and both are found out before any file is written. -/

namespace Scaffold

/-- The name of the manifest, below the template root. -/
def manifestName : String := "Template.txt"

/-- The name of the directory of template files, below the template root. -/
def templateDirName : String := "Project"

/-- How the creation of a project ends: with a report or an error, what was logged, and the file
    system as it is then. -/
structure Creation where
  result : Except Error Report
  log : List LogLine
  fs : FileSystem

/-- What a project is created from. -/
structure ProjectPlan where
  options : ProjectOptions
  roots : Roots
  ids : ProjectIds
  /-- Whether copies may replace files. -/
  overwrite : Bool

namespace ProjectPlan

/-- The filter that replaces references to the project's variables. -/
def filter (plan : ProjectPlan) : TextFilter :=
  substitute (.forProject plan.options plan.ids)

/-- The path of the manifest. -/
def manifestPath (plan : ProjectPlan) : String :=
  Path.join plan.roots.templateRoot manifestName

/-- The path of the directory of template files. -/
def templateDir (plan : ProjectPlan) : String :=
  Path.join plan.roots.templateRoot templateDirName

/-- The path of the project's directory. -/
def projectRoot (plan : ProjectPlan) : String :=
  Path.join plan.roots.engineRoot plan.options.projectDir

/-- The runner from the template files into the project's directory. -/
def runner (plan : ProjectPlan) : Runner where
  filter := plan.filter
  templateRoot := plan.templateDir
  outputRoot := plan.projectRoot
  overwrite := plan.overwrite

/-- Runs the main set and the set of the scene's section. -/
def runSets (plan : ProjectPlan) (manifest : Manifest) : Step :=
  let name := plan.options.scene.sectionName
  Step.seq <|
    plan.runner.run manifest.main ::
      match manifest.section? name with
      | some set => [fun fs => ([.sectionFound name], fs), plan.runner.run set]
      | none => [fun fs => ([.sectionMissing name], fs)]

/-- Creates the project. -/
def create (plan : ProjectPlan) (fs : FileSystem) : Creation :=
  let lines := Manifest.loadLines plan.filter plan.manifestPath fs
  let loadLog := Manifest.loadLog plan.manifestPath lines
  match lines with
  | .error error =>
    ⟨.error error, loadLog ++ [⟨.error, "Cannot read template index data."⟩], fs⟩
  | .ok lines =>
    match fs.makeDirectories plan.projectRoot with
    | (.error cause, fs) =>
      ⟨.error (.projectRoot plan.projectRoot cause),
        loadLog ++ [⟨.error, "Cannot create project directory."⟩], fs⟩
    | (.ok (), fs) =>
      let missingLog :=
        if fs.isDirectory plan.templateDir then []
        else [⟨.error, "Template project data not exists: " ++ plan.templateDir⟩]
      let (events, done) := plan.runSets (.ofLines lines) fs
      ⟨.ok (.ofEvents events),
        loadLog ++ missingLog ++ [⟨.info, "Creating project in " ++ plan.projectRoot⟩] ++
          events.map Event.log,
        done⟩

end ProjectPlan

end Scaffold
