import Scaffold.Log
import Scaffold.Options.Choice

set_option autoImplicit false

/-! # Drafts of options

A draft holds option values as they were given, each of them or not. Drafts come in layers: merging
lays one over another, and a value of the upper layer wins. An orientation or a scene that means
nothing does not win over a value that is there already. -/

namespace Scaffold

/-- The options that can be given. -/
inductive DraftField
  | programName
  | projectDir
  | title
  | appIdentifier
  | orientation
  | scene
  | engineRoot
  | templateRoot
  deriving DecidableEq, Repr

namespace DraftField

/-- All fields, in the order in which they are listed. -/
def all : List DraftField :=
  [.programName, .projectDir, .title, .appIdentifier, .orientation, .scene, .engineRoot,
    .templateRoot]

/-- The names of the field in an options file; the first one is its own name. -/
def keys : DraftField → List String
  | .programName => ["program_name"]
  | .projectDir => ["project_dir", "project_directory"]
  | .title => ["title"]
  | .appIdentifier => ["app_identifier", "appid", "app_id"]
  | .orientation => ["orientation"]
  | .scene => ["scene"]
  | .engineRoot => ["engine_root", "engine_path"]
  | .templateRoot => ["template_root", "template_path"]

/-- The field that a name in an options file belongs to. -/
def ofKey? (key : String) : Option DraftField :=
  all.find? fun field => field.keys.contains key

end DraftField

/-- Option values as they were given. -/
structure Draft where
  programName : Option String
  projectDir : Option String
  title : Option String
  appIdentifier : Option String
  orientation : Option String
  scene : Option String
  engineRoot : Option String
  templateRoot : Option String
  deriving DecidableEq, Repr

namespace Draft

/-- No values. -/
def empty : Draft :=
  ⟨none, none, none, none, none, none, none, none⟩

/-- The value of a field. -/
def get (d : Draft) : DraftField → Option String
  | .programName => d.programName
  | .projectDir => d.projectDir
  | .title => d.title
  | .appIdentifier => d.appIdentifier
  | .orientation => d.orientation
  | .scene => d.scene
  | .engineRoot => d.engineRoot
  | .templateRoot => d.templateRoot

/-- The draft with another value in a field. -/
def set (d : Draft) (field : DraftField) (value : Option String) : Draft :=
  match field with
  | .programName => { d with programName := value }
  | .projectDir => { d with projectDir := value }
  | .title => { d with title := value }
  | .appIdentifier => { d with appIdentifier := value }
  | .orientation => { d with orientation := value }
  | .scene => { d with scene := value }
  | .engineRoot => { d with engineRoot := value }
  | .templateRoot => { d with templateRoot := value }

theorem get_set (d : Draft) (field other : DraftField) (value : Option String) :
    (d.set field value).get other = if other = field then value else d.get other := by
  cases field <;> cases other <;> rfl

theorem get_empty (field : DraftField) : empty.get field = none := by
  cases field <;> rfl

/-- Drafts with the same values are the same. -/
theorem ext_get {d d' : Draft} (h : ∀ field, d.get field = d'.get field) : d = d' := by
  cases d
  cases d'
  rw [mk.injEq]
  exact ⟨h .programName, h .projectDir, h .title, h .appIdentifier, h .orientation, h .scene,
    h .engineRoot, h .templateRoot⟩

/-- The draft made of fields and their values, unless a field comes twice. -/
def ofFields? : List (DraftField × Option String) → Option Draft
  | [] => some empty
  | (field, value) :: rest =>
    if rest.any fun entry => entry.1 = field then none
    else (ofFields? rest).map fun d => d.set field value

/-! ## Merging -/

/-- A value laid over another. -/
def overlay (below above : Option String) : Option String :=
  match above with
  | some value => some value
  | none => below

/-- A value laid over another that it only replaces if it is valid. -/
def overlayValid (isValid : String → Bool) (below above : Option String) : Option String :=
  match below, above with
  | some old, some new => if isValid new then some new else some old
  | none, above => above
  | below, none => below

/-- What is logged about a value that is laid over another and means nothing. -/
def overlayLog (isValid : String → Bool) (what : String) (below above : Option String) :
    List LogLine :=
  match below, above with
  | some _, some new => if isValid new then [] else [ignored what new]
  | _, _ => []
where
  /-- The log line about a value that means nothing. -/
  ignored (what value : String) : LogLine :=
    ⟨.warning, "Not a valid " ++ what ++ " value \"" ++ value ++ "\" (ignored)."⟩

/-- Whether a text means an orientation. -/
def isOrientation (value : String) : Bool :=
  (Orientation.parse? value).isSome

/-- Whether a text means a scene. -/
def isScene (value : String) : Bool :=
  (Scene.parse? value).isSome

/-- The draft `above` laid over the draft `below`. -/
def merge (below above : Draft) : Draft where
  programName := overlay below.programName above.programName
  projectDir := overlay below.projectDir above.projectDir
  title := overlay below.title above.title
  appIdentifier := overlay below.appIdentifier above.appIdentifier
  orientation := overlayValid isOrientation below.orientation above.orientation
  scene := overlayValid isScene below.scene above.scene
  engineRoot := overlay below.engineRoot above.engineRoot
  templateRoot := overlay below.templateRoot above.templateRoot

/-- What is logged when the draft `above` is laid over the draft `below`. -/
def mergeLog (below above : Draft) : List LogLine :=
  overlayLog isOrientation "orientation" below.orientation above.orientation ++
    overlayLog isScene "scene" below.scene above.scene

end Draft

end Scaffold
