import Scaffold.Keyed
import Scaffold.Log
import Scaffold.Operation
import Scaffold.Manifest.SectionName

set_option autoImplicit false

/-! # Manifests

A manifest says what a template consists of. Its text is read line by line: blank lines and comments
are dropped, every other line goes through a filter and is then a section header, an operation or
nothing. Operations belong to the section of the header before them; before the first header and
after an empty one they belong to the main set. Lines that mean nothing are passed over, so every
text is a manifest. -/

namespace Scaffold

/-- A change made to every line of a manifest and to the text of every filtered file. -/
abbrev TextFilter := String → String

/-- The meaning of one line of a manifest after it was filtered. -/
inductive ManifestLine
  /-- The header of the section `name`; an empty name leads back to the main set. -/
  | header (name : String)
  /-- A header whose brackets do not close, trimmed. -/
  | badHeader (line : String)
  | operation (op : Operation)
  /-- Anything else, trimmed. -/
  | other (line : String)
  deriving DecidableEq, Repr

namespace ManifestLine

/-- The trimmed parts of a line between its colons. -/
def tokens (line : List Char) : List (List Char) :=
  (Text.splitChars ':' line).map Text.trimChars

/-- The meaning of a trimmed line. -/
def ofTrimmed (line : List Char) : ManifestLine :=
  let parts := tokens line
  let first := parts.headD []
  if first.head? = some '[' then
    match SectionName.inBrackets? first with
    | some name => .header (String.ofList (Text.trimChars name))
    | none => .badHeader (String.ofList line)
  else
    match Operation.ofTokens? (parts.map String.ofList) with
    | some op => .operation op
    | none => .other (String.ofList line)

/-- The meaning of a filtered line. -/
def ofText (line : String) : ManifestLine :=
  ofTrimmed (Text.trimChars line.toList)

/-- Whether a line counts before it is filtered: it is not blank and no comment. -/
def isSignificant (line : List Char) : Bool :=
  (line.any fun c => !Text.isBlank c) && line.head? != some '#'

/-- The meanings of the lines of a manifest. -/
def readAll (filter : TextFilter) (text : String) : List ManifestLine :=
  ((Text.lineChars (Text.dropMark text).toList).filter isSignificant).map fun line =>
    ofText (filter (String.ofList line))

/-- What is logged about a line. -/
def log : ManifestLine → List LogLine
  | .header name => [⟨.debug, "Manifest section: '" ++ name ++ "'"⟩]
  | .badHeader line => [⟨.debug, "Ignoring malformed section header: " ++ line⟩]
  | .operation _ => []
  | .other line => [⟨.debug, "Ignoring manifest line: " ++ line⟩]

end ManifestLine

/-- The operations of a template: the main set, and the sets of the named sections in the order in
    which their names first came. -/
structure Manifest where
  main : OperationSet
  sections : Keyed String OperationSet
  deriving DecidableEq

namespace Manifest

/-- A manifest without operations. -/
def empty : Manifest :=
  ⟨.empty, .empty⟩

/-- The set of the named section. -/
def section? (m : Manifest) (name : String) : Option OperationSet :=
  m.sections.get? name

/-- Makes sure that there is a section `name`. -/
def openSection (m : Manifest) (name : String) : Manifest :=
  { m with sections := m.sections.update name (·.getD .empty) }

/-- Adds an operation to the named section, or to the main set. -/
def push (m : Manifest) (current : Option String) (op : Operation) : Manifest :=
  match current with
  | none => { m with main := m.main.push op }
  | some name => { m with sections := m.sections.update name fun set => (set.getD .empty).push op }

/-- A manifest that is being read, and the section that the next operations belong to. -/
structure Reader where
  manifest : Manifest
  current : Option String

/-- Takes in one line. -/
def Reader.step (r : Reader) : ManifestLine → Reader
  | .header name =>
    if name = "" then { r with current := none }
    else ⟨r.manifest.openSection name, some name⟩
  | .operation op => { r with manifest := r.manifest.push r.current op }
  | .badHeader _ => r
  | .other _ => r

/-- The manifest that the lines make up. -/
def ofLines (lines : List ManifestLine) : Manifest :=
  (lines.foldl Reader.step ⟨.empty, none⟩).manifest

/-- Reads the text of a manifest. -/
def parse (filter : TextFilter) (text : String) : Manifest :=
  ofLines (ManifestLine.readAll filter text)

/-- What is logged while the text is read. -/
def parseLog (filter : TextFilter) (text : String) : List LogLine :=
  (ManifestLine.readAll filter text).flatMap ManifestLine.log

end Manifest

end Scaffold
