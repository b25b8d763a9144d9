set_option autoImplicit false

/-! # Usage -/

namespace Scaffold

/-- The lines of the text that explains the command line. -/
def usageLines : List String :=
  ["Usage: projgen [-h] ProgramName [-a appid] [-t title] [-p name] [-o orient] [-s scene] " ++
      "[-e path] [-d path]",
    "Create a new game project from a project template.",
    "",
    "  -h, --help                    show usages",
    "  -v, --verbose                 enable verbose logging output",
    "  -f, --force                   let copied files replace existing project files",
    "",
    "  -a, --appid           appid   set app identifier of iOS/Android platform, " ++
      "e.g. com.example.MyGame",
    "                                (com.yourcompany.\x7bProgramName\x7d when not specified)",
    "  -t, --title           title   set the title of the game",
    "                                (\x7bProgramName\x7d when not specified)",
    "  -p, --project-dir     name    set the game project directory name",
    "                                (\x7bProgramName\x7d when not specified)",
    "  -o, --orientation     orient  set orientation of the game app (kLandscape, kPortrait)",
    "                                (default orientation is kLandscape)",
    "  -s, --scene           scene   set game scene setting of generated source code",
    "                                (kNone, kEmptyScene, kUIBaseScene; default is kEmptyScene)",
    "                                  * kNone:        game application code only, no scene",
    "                                  * kEmptyScene:  an empty game scene",
    "                                  * kUIBaseScene: a game scene with UI functionality",
    "  -e, --engine-path     path    set engine root directory; the project is created there",
    "                                (default path is ../..)",
    "  -d, --template-path   path    set project template data path",
    "                                (default path is ./Template)",
    "      --config          file    read options from a JSON or YAML file"]

/-- The text that explains the command line. -/
def usage : String :=
  String.join (usageLines.map (· ++ "\n"))

end Scaffold
