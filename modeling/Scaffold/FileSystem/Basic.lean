import Scaffold.FileSystem.Cause
import Scaffold.FileSystem.Node
import Scaffold.FileSystem.Path

set_option autoImplicit false

/-! # File systems

A file system is a root directory and a working directory. Its places are lists of names from the
root; `lookup` says what a place holds, and everything a program can observe is said in terms of it.

A path text is followed piece by piece. Parent pieces lead to the directory above the place that was
reached, so every directory on the way has to exist. The system limits how long a path text and a
name may be.

This is a closed world. All there is are directories and regular files with their bytes. There are
no links, so a place has exactly one list of names, and there are no special files. There are no
permission bits and there is always space, so no access fails by `SystemFault.permissionDenied` or
`SystemFault.noSpace`: it fails by the shape of its path text, by what stands on the way or at the
end of the path, or by what a file holds. Nothing changes between one access and the next. -/

namespace Scaffold

/-- The files and directories, and the place of the working directory. -/
structure FileSystem where
  root : List (String × Node)
  workDir : List String

namespace FileSystem

/-- The node at a place. -/
def node? (fs : FileSystem) (place : List String) : Option Node :=
  (Node.directory fs.root).at? place

/-- What a place holds. -/
def lookup (fs : FileSystem) (place : List String) : Option Entry :=
  (fs.node? place).map Node.entry

/-- The file system with `node` at a place. The root always stays a directory. -/
def put (fs : FileSystem) (place : List String) (node : Node) : FileSystem :=
  { fs with root := (Node.put node place (.directory fs.root)).children }

/-- The path text of a place. -/
def pathOf (place : List String) : String :=
  "/" ++ "/".intercalate place

/-! ## Following paths -/

/-- A path text has fewer bytes than this. -/
def pathLimit : Nat := 4096

/-- A name has at most this many bytes. -/
def nameLimit : Nat := 255

/-- Where a path leads: to something, or to a free name in a directory. -/
inductive Target
  | found (place : List String)
  | free (directory : List String) (name : String)
  deriving DecidableEq, Repr

/-- Follows the pieces of a path from a place. -/
def follow (fs : FileSystem) (here : List String) : List String → Except SystemFault Target
  | [] => .ok (.found here)
  | piece :: pieces =>
    match fs.lookup here with
    | none => .error .notFound
    | some (.file _) => .error .notDirectory
    | some .directory =>
      if piece = "." then fs.follow here pieces
      else if piece = ".." then fs.follow here.dropLast pieces
      else if nameLimit < piece.utf8ByteSize then .error .nameTooLong
      else
        match fs.lookup (here ++ [piece]) with
        | some _ => fs.follow (here ++ [piece]) pieces
        | none => if pieces.isEmpty then .ok (.free here piece) else .error .notFound

/-- The pieces of a path text that the system follows. -/
def pieces (path : String) : List String :=
  ((Text.splitChars '/' path.toList).filter (· != [])).map String.ofList

/-- The pieces of a path text that has to lead to a directory if it ends in a slash. -/
def strictPieces (path : String) : List String :=
  if path.toList.getLast? = some '/' then pieces path ++ ["."] else pieces path

/-- Follows a path text whose pieces are given. -/
def resolvePieces (fs : FileSystem) (path : String) (pieces : List String) : Except Cause Target :=
  if path.toList.contains '\x00' then .error .nullInPath
  else if path = "" then .error (.system .notFound)
  else if pathLimit ≤ path.utf8ByteSize then .error (.system .nameTooLong)
  else
    match fs.follow (if Path.isAbsolute path.toList then [] else fs.workDir) pieces with
    | .ok target => .ok target
    | .error fault => .error (.system fault)

/-- Follows a path text. -/
def resolve (fs : FileSystem) (path : String) : Except Cause Target :=
  fs.resolvePieces path (strictPieces path)

/-! ## Looking -/

/-- What a path leads to, if it leads to something. -/
def entry? (fs : FileSystem) (path : String) : Option Entry :=
  match fs.resolve path with
  | .ok (.found place) => fs.lookup place
  | _ => none

/-- Whether a path leads to something. -/
def isThere (fs : FileSystem) (path : String) : Bool :=
  (fs.entry? path).isSome

/-- Whether a path leads to a directory. -/
def isDirectory (fs : FileSystem) (path : String) : Bool :=
  match fs.entry? path with
  | some .directory => true
  | _ => false

/-- Whether a path leads to a file. -/
def isFile (fs : FileSystem) (path : String) : Bool :=
  match fs.entry? path with
  | some (.file _) => true
  | _ => false

/-- The bytes of a file. -/
def read (fs : FileSystem) (path : String) : Except Cause ByteArray :=
  match fs.resolve path with
  | .error cause => .error cause
  | .ok (.free _ _) => .error (.system .notFound)
  | .ok (.found place) =>
    match fs.lookup place with
    | some (.file bytes) => .ok bytes
    | some .directory => .error (.system .isDirectory)
    | none => .error (.system .notFound)

/-- The text of a file, a byte order mark included. -/
def readText (fs : FileSystem) (path : String) : Except Cause String :=
  match fs.read path with
  | .error cause => .error cause
  | .ok bytes =>
    match String.fromUTF8? bytes with
    | some text => .ok text
    | none => .error .notText

/-- The names in a directory, sorted, each with whether it is the name of a directory. -/
def list (fs : FileSystem) (path : String) : Except Cause (List (String × Bool)) :=
  match fs.resolve path with
  | .error cause => .error cause
  | .ok (.free _ _) => .error (.system .notFound)
  | .ok (.found place) =>
    match fs.node? place with
    | none => .error (.system .notFound)
    | some (.file _) => .error (.system .notDirectory)
    | some (.directory children) =>
      .ok ((Node.directory children).names.map fun name =>
        (name, fs.lookup (place ++ [name]) == some .directory))

/-! ## Changing

Every change returns the file system as it is afterwards, also when it fails. -/

/-- What a change comes to, and the file system after it. -/
abbrev Change := Except Cause Unit × FileSystem

/-- Makes one directory. -/
def makeDirectory (fs : FileSystem) (path : String) : Change :=
  match fs.resolvePieces path (pieces path) with
  | .error cause => (.error cause, fs)
  | .ok (.found _) => (.error (.system .alreadyExists), fs)
  | .ok (.free directory name) => (.ok (), fs.put (directory ++ [name]) (.directory []))

/-- Makes the first directory of the list, whose ancestors follow it nearest first. Where one is
    missing its own ancestors are made before it. It is no failure if the directory is there. -/
def makeLineage (fs : FileSystem) : List String → Change
  | [] => (.error (.other "failed to create whole tree"), fs)
  | path :: ancestors =>
    if path = "" then (.ok (), fs)
    else
      match fs.makeDirectory path with
      | (.ok (), made) => (.ok (), made)
      | (.error cause, _) =>
        if cause = .system .notFound then
          match fs.makeLineage ancestors with
          | (.error cause, below) => (.error cause, below)
          | (.ok (), below) =>
            match below.makeDirectory path with
            | (.ok (), made) => (.ok (), made)
            | (.error cause, _) =>
              (if below.isDirectory path then .ok () else .error cause, below)
        else (if fs.isDirectory path then .ok () else .error cause, fs)

/-- Makes a directory and all its missing ancestors. -/
def makeDirectories (fs : FileSystem) (path : String) : Change :=
  fs.makeLineage (Path.ancestors path)

/-- Makes the directory that a path's last component is to stand in. -/
def makeParent (fs : FileSystem) (path : String) : Change :=
  match Path.parent? path with
  | some parent => fs.makeDirectories parent
  | none => (.ok (), fs)

/-- Makes a file hold the bytes; a file that is there loses what it held. -/
def write (fs : FileSystem) (path : String) (bytes : ByteArray) : Change :=
  match fs.resolve path with
  | .error cause => (.error cause, fs)
  | .ok (.free directory name) => (.ok (), fs.put (directory ++ [name]) (.file bytes))
  | .ok (.found place) =>
    match fs.lookup place with
    | some (.file _) => (.ok (), fs.put place (.file bytes))
    | _ => (.error (.system .isDirectory), fs)

/-- Copies a file. The source is opened first; then the target is opened, which empties it; only
    then is the source read, so a file that is copied onto itself ends up empty. -/
def copy (fs : FileSystem) (source target : String) : Change :=
  match fs.read source with
  | .error cause => (.error cause, fs)
  | .ok _ =>
    match fs.write target .empty with
    | (.error cause, opened) => (.error cause, opened)
    | (.ok (), opened) =>
      match opened.read source with
      | .error cause => (.error cause, opened)
      | .ok bytes => opened.write target bytes

end FileSystem

end Scaffold
