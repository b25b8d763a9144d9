import Scaffold.Error
import Scaffold.FileSystem.Basic
import Scaffold.Manifest.Basic

set_option autoImplicit false

/-! # Manifest files

A manifest file holds the text of a manifest. Reading it fails only if the file cannot be read as
text. -/

namespace Scaffold

namespace Manifest

/-- The meanings of the lines of the manifest at a path. -/
def loadLines (filter : TextFilter) (path : String) (fs : FileSystem) :
    Except Error (List ManifestLine) :=
  match fs.readText path with
  | .error cause => .error (.manifest path cause)
  | .ok text => .ok (ManifestLine.readAll filter text)

/-- Reads the manifest at a path. -/
def load (filter : TextFilter) (path : String) (fs : FileSystem) : Except Error Manifest :=
  (loadLines filter path fs).map ofLines

/-- What is logged when the manifest at a path is read. -/
def loadLog (path : String) (lines : Except Error (List ManifestLine)) : List LogLine :=
  ⟨.debug, "Reading template manifest " ++ path⟩ ::
    match lines with
    | .error _ => []
    | .ok lines => lines.flatMap ManifestLine.log

end Manifest

end Scaffold
