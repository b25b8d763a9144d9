import Scaffold.Error
import Scaffold.FileSystem.Basic
import Scaffold.Json.Value
import Scaffold.Options.Draft
import Scaffold.Yaml.Outline

set_option autoImplicit false

/-! # Options files

An options file holds a draft. Its text is read as JSON and, where that fails, as YAML. Keys that
belong to no field are passed over with their values; a field that comes twice is refused, also
under two of its names. A JSON array gives the values of the fields in order. -/

namespace Scaffold

namespace Draft

/-! ## JSON -/

/-- The value of a field in JSON: a string or null. -/
def jsonValue? : Json → Option (Option String)
  | .null => some none
  | .string parts => (Json.textOfParts? parts).map fun text => some (String.ofList text)
  | _ => none

/-- The fields among the members of an object, with their values. -/
def jsonFields? : List (List Json.Part × Json) → Option (List (DraftField × Option String))
  | [] => some []
  | (name, value) :: members =>
    match Json.textOfParts? name with
    | none => none
    | some key =>
      match DraftField.ofKey? (String.ofList key) with
      | none => jsonFields? members
      | some field =>
        match jsonValue? value, jsonFields? members with
        | some value, some fields => some ((field, value) :: fields)
        | _, _ => none

/-- The draft that a JSON value holds. -/
def ofJson? : Json → Option Draft
  | .object members => (jsonFields? members).bind ofFields?
  | .array items =>
    if DraftField.all.length < items.length then none
    else (items.mapM jsonValue?).bind fun values => ofFields? (DraftField.all.zip values)
  | _ => none

/-! ## YAML -/

/-- The words that mean that there is no value. -/
def nullWords : List (List Char) :=
  ["null".toList, "Null".toList, "NULL".toList, ['~']]

/-- The value of a field in YAML. Only a plain scalar can mean that there is none; a plain scalar
    that is tagged as null has to mean it. -/
def yamlValue? (scalar : Yaml.Scalar) : Option (Option String) :=
  let text := some (String.ofList scalar.text)
  if !scalar.isPlain then some text
  else
    match scalar.tag with
    | none => some (if scalar.text.isEmpty || nullWords.contains scalar.text then none else text)
    | some tag =>
      if tag = "tag:yaml.org,2002:null".toList then
        if nullWords.contains scalar.text then some none else none
      else some text

/-- The fields among the entries of a mapping, with their values. -/
def yamlFields? : Nat → List Yaml.Entry → Option (List (DraftField × Option String))
  | 0, _ => none
  | _, [.collectionEnd] => some []
  | room + 1, .scalar key :: value :: entries =>
    match DraftField.ofKey? (String.ofList key.text) with
    | none => yamlFields? room (Yaml.behindNode 0 (value :: entries))
    | some field =>
      match value.scalar?.bind yamlValue?, yamlFields? room entries with
      | some value, some fields => some ((field, value) :: fields)
      | _, _ => none
  | _, _ => none

/-- The draft that the outline of a YAML document holds. A document in which nothing stands holds no
    values. -/
def ofOutline? : List Yaml.Entry → Option Draft
  | [] => some empty
  | [.scalar scalar] => if scalar.isPlain && scalar.text.isEmpty then some empty else none
  | .mappingStart :: entries => (yamlFields? entries.length entries).bind ofFields?
  | _ => none

/-! ## Files -/

/-- The draft that the text of an options file holds. -/
def parse? (text : String) : Option Draft :=
  match (Json.read? text).bind ofJson? with
  | some draft => some draft
  | none => ((Yaml.events? text).bind Yaml.outline?).bind ofOutline?

/-- Reads the text of an options file. -/
def parse (text : String) : Except Error Draft :=
  match parse? text with
  | some draft => .ok draft
  | none => .error (.config "Invalid options format: neither JSON nor YAML with option values")

/-- Reads the options file at a path. -/
def load (path : String) (fs : FileSystem) : Except Error Draft :=
  if fs.isFile path then
    match fs.readText path with
    | .error cause => .error (.access cause)
    | .ok text => parse text
  else .error (.config ("Invalid options file path: " ++ path))

/-- What is logged when the options file at a path is read. -/
def loadLog (path : String) (fs : FileSystem) : List LogLine :=
  if fs.isFile path then [⟨.debug, "Loading options from " ++ path⟩] else []

end Draft

end Scaffold
