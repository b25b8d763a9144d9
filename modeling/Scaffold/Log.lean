set_option autoImplicit false

/-! # Log lines

A pure function that has something to tell returns it as log lines, in the order in which they are
to be shown. Which levels are shown is for whoever shows them. -/

namespace Scaffold

/-- How much a log line matters. -/
inductive Level
  | error
  | warning
  | info
  | debug
  deriving DecidableEq, Repr

/-- One line of a log. -/
structure LogLine where
  level : Level
  text : String
  deriving DecidableEq, Repr

namespace Level

/-- The name of the level, as it is shown. -/
def name : Level → String
  | .error => "ERROR"
  | .warning => "WARN"
  | .info => "INFO"
  | .debug => "DEBUG"

/-- The name of the level, filled up to five characters. -/
def label : Level → String
  | .error => "ERROR"
  | .warning => "WARN "
  | .info => "INFO "
  | .debug => "DEBUG"

/-- Whether lines of the level are shown. Only a verbose log shows debug lines. -/
def isShown (verbose : Bool) : Level → Bool
  | .debug => verbose
  | _ => true

end Level

namespace LogLine

/-- The text with further lines set in by four blanks, below the first. -/
def indent : List Char → List Char
  | [] => []
  | c :: cs => if c = '\n' then '\n' :: ' ' :: ' ' :: ' ' :: ' ' :: indent cs else c :: indent cs

/-- The line as a log shows it: the level in a bracket of fixed width, then the text. -/
def render (line : LogLine) : String :=
  "[" ++ line.level.label ++ "] " ++ String.ofList (indent line.text.toList)

end LogLine

end Scaffold
