import Scaffold.Options.Project
import Scaffold.Project.Identifiers
import Scaffold.Variables

set_option autoImplicit false

/-! # Variables of a project

The templates of a project may refer to its name, title and app identifier, to texts that depend on
the orientation, and to the identifiers made up for it. -/

namespace Scaffold

/-- The variables that depend on the orientation. -/
def Orientation.assignments : Orientation → List (String × String)
  | .landscape =>
    [("Orientation-IsLandscapeCppBool", "true"),
      ("Orientation-Android", "userLandscape"),
      ("Orientation-iOS",
        "\t\t<string>UIInterfaceOrientationLandscapeLeft</string>\r\n" ++
          "\t\t<string>UIInterfaceOrientationLandscapeRight</string>"),
      ("Resolution-WinPC", "\t\tscreenWidth = 1280;\r\n\t\tscreenHeight = 720;")]
  | .portrait =>
    [("Orientation-IsLandscapeCppBool", "false"),
      ("Orientation-Android", "userPortrait"),
      ("Orientation-iOS",
        "\t\t<string>UIInterfaceOrientationPortrait</string>\r\n" ++
          "\t\t<string>UIInterfaceOrientationPortraitUpsideDown</string>"),
      ("Resolution-WinPC", "\t\tscreenWidth = 540;\r\n\t\tscreenHeight = 960;")]

/-- The variables that depend on the options. -/
def ProjectOptions.assignments (o : ProjectOptions) : List (String × String) :=
  [("ProgramName", o.programName), ("ProgramName-Lower", Text.lower o.programName),
    ("ProgramName-Upper", Text.upper o.programName), ("GameTitle", o.title),
    ("AppIdentifier", o.appIdentifier)] ++ o.orientation.assignments

/-- The table of a project's variables. -/
def VariableTable.forProject (o : ProjectOptions) (ids : ProjectIds) : VariableTable :=
  VariableTable.initial.setAll (o.assignments ++ ids.assignments)

end Scaffold
