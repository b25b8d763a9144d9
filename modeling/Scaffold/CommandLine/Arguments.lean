import Scaffold.CommandLine.Tokenizer
import Scaffold.Options.File

set_option autoImplicit false

/-! # The arguments of the program

The first positional argument is the program name of the project. The options give the other fields
of a draft, name an options file and set flags; each of them has several names. The last value that
is not blank counts. What has no meaning is kept, so that it can be told, and otherwise ignored. -/

namespace Scaffold

/-- What an option of the command line means. -/
inductive ArgumentOption
  /-- The value of a field. -/
  | field (field : DraftField)
  /-- The path of an options file. -/
  | config
  | help
  | verbose
  | force
  deriving DecidableEq, Repr

namespace ArgumentOption

/-- The options that take a value. -/
def withValue : List ArgumentOption :=
  [.field .appIdentifier, .field .title, .field .projectDir, .field .orientation, .field .scene,
    .field .engineRoot, .field .templateRoot, .config]

/-- The options that take none. -/
def flags : List ArgumentOption :=
  [.help, .verbose, .force]

/-- The names of an option. The program name is no option. -/
def names : ArgumentOption → List String
  | .field .programName => []
  | .field .appIdentifier => ["appid", "app-id", "a"]
  | .field .title => ["title", "t"]
  | .field .projectDir => ["project-dir", "dir", "p"]
  | .field .orientation => ["orientation", "o"]
  | .field .scene => ["scene", "s"]
  | .field .engineRoot => ["engine", "engine-path", "e"]
  | .field .templateRoot => ["template", "template-path", "d"]
  | .config => ["config"]
  | .help => ["help", "h"]
  | .verbose => ["verbose", "v"]
  | .force => ["force", "f"]

/-- The option with a name. -/
def ofName? (name : String) : Option ArgumentOption :=
  (flags ++ withValue).find? fun option => option.names.contains name

end ArgumentOption

/-- The arguments of the program. -/
structure Arguments where
  /-- The option values. -/
  draft : Draft
  /-- The path of an options file. -/
  config : Option String
  /-- Whether to show the usage and do nothing else. -/
  help : Bool
  /-- Whether the log tells more. -/
  verbose : Bool
  /-- Whether copies may replace files. -/
  force : Bool
  /-- The names of options that mean nothing. -/
  unknown : List String
  /-- The positional arguments behind the program name. -/
  extra : List String
  deriving DecidableEq, Repr

namespace Arguments

/-- How the program's command line is cut up. A slash begins a path, so it is no prefix. -/
def tokenizer : Tokenizer :=
  (Tokenizer.ofValueOptions (ArgumentOption.withValue.flatMap ArgumentOption.names)).withPrefixes
    ["-", "--"]

/-- The arguments before any option is taken. -/
def ofPositionals (positionals : List String) : Arguments where
  draft := Draft.empty.set .programName (positionals.head?.map Text.trim)
  config := none
  help := false
  verbose := false
  force := false
  unknown := []
  extra := positionals.drop 1

/-- A new value, unless it is missing or blank. -/
def newer (old value : Option String) : Option String :=
  match value.bind Text.nonBlank? with
  | some value => some value
  | none => old

/-- Takes an option of the command line. -/
def takeOption (a : Arguments) (name : String) (value : Option String) : Arguments :=
  match ArgumentOption.ofName? name with
  | some .help => { a with help := true }
  | some .verbose => { a with verbose := true }
  | some .force => { a with force := true }
  | some .config => { a with config := newer a.config value }
  | some (.field field) => { a with draft := a.draft.set field (newer (a.draft.get field) value) }
  | none => { a with unknown := a.unknown ++ [name] }

/-- The arguments that items make up. -/
def ofItems (items : List Item) : Arguments :=
  (items.filterMap Item.option?).foldl (fun a (name, value) => a.takeOption name value)
    (ofPositionals (items.filterMap Item.positional?))

/-- The arguments of a command line. -/
def ofCommandLine (args : List String) : Arguments :=
  ofItems (tokenizer.items args)

/-- What is logged about the arguments that are ignored. -/
def ignoredLog (a : Arguments) : List LogLine :=
  let unknown (name : String) : LogLine :=
    ⟨.warning, "Not a valid option \"" ++ name ++ "\" specified (ignored)."⟩
  let unexpected (arg : String) : LogLine :=
    ⟨.warning, "Unexpected argument \"" ++ arg ++ "\" (ignored)."⟩
  a.unknown.map unknown ++ a.extra.map unexpected

/-- The draft of the options file, or an empty one if no file is named. -/
def fileDraft (a : Arguments) (fs : FileSystem) : Except Error Draft :=
  match a.config with
  | some path => Draft.load path fs
  | none => .ok .empty

/-- The draft of the options file with that of the command line laid over it. -/
def resolve (a : Arguments) (fs : FileSystem) : Except Error Draft :=
  (a.fileDraft fs).map fun draft => draft.merge a.draft

/-- What is logged when the drafts are merged. -/
def resolveLog (a : Arguments) (fs : FileSystem) : List LogLine :=
  (match a.config with
    | some path => Draft.loadLog path fs
    | none => []) ++
  match a.fileDraft fs with
  | .ok draft => draft.mergeLog a.draft
  | .error _ => []

end Arguments

end Scaffold
