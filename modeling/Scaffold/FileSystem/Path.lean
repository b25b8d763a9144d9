import Scaffold.Text.Pieces

set_option autoImplicit false

/-! # Path texts

A path text is what a path is given and shown as. These functions work on the text alone and never
look at a file system. A path text is a root slash, if it begins with one, and the pieces between
its slashes. A piece that is empty or a single dot says nothing, unless it is a dot at the very
beginning; the other pieces are the *components* of the path. Texts are kept as they were written:
joining does not tidy them up, and a parent is a beginning of the text. -/

namespace Scaffold.Path

/-- Whether the path text begins at the root. -/
def isAbsolute (path : List Char) : Bool :=
  path.head? == some '/'

/-- The characters of `path` continued by `rest`. An absolute `rest` stands for itself; otherwise a
    slash goes between the two unless `path` is empty or ends in one. -/
def joinChars (path rest : List Char) : List Char :=
  if isAbsolute rest then rest
  else if path.isEmpty || path.getLast? == some '/' then path ++ rest
  else path ++ '/' :: rest

/-- The path text `path` continued by `rest`. -/
def join (path rest : String) : String :=
  String.ofList (joinChars path.toList rest.toList)

/-! ## Components -/

/-- Whether a piece that is not at the beginning says nothing. -/
def isSilent (piece : List Char) : Bool :=
  piece == [] || piece == ['.']

/-- The pieces without those at the end that say nothing. A dot at the very beginning of a relative
    path, at position `first`, does say something. -/
def dropSilentEnd (first : Bool) : List (List Char) → List (List Char)
  | [] => []
  | piece :: pieces =>
    match dropSilentEnd false pieces with
    | [] => if isSilent piece && !(first && piece == ['.']) then [] else [piece]
    | kept => piece :: kept

/-- The text of pieces with slashes between them. -/
def unsplit : List (List Char) → List Char
  | [] => []
  | [piece] => piece
  | piece :: pieces => piece ++ '/' :: unsplit pieces

/-- The pieces behind the root slash, up to the last component. -/
def leadingPieces (path : List Char) : List (List Char) :=
  let absolute := isAbsolute path
  dropSilentEnd (!absolute) (Text.splitChars '/' (if absolute then path.drop 1 else path))

/-- The path text of a path's parent; the root and the empty path have none. -/
def parentChars? (path : List Char) : Option (List Char) :=
  let absolute := isAbsolute path
  match leadingPieces path with
  | [] => none
  | pieces =>
    some ((if absolute then ['/'] else []) ++
      unsplit (dropSilentEnd (!absolute) pieces.dropLast))

/-- The path text of a path's parent; the root and the empty path have none. -/
def parent? (path : String) : Option String :=
  (parentChars? path.toList).map String.ofList

/-- The path text and those of its ancestors, nearest first, at most `n` of them. -/
def selfAndAncestors : Nat → String → List String
  | 0, path => [path]
  | n + 1, path =>
    match parent? path with
    | none => [path]
    | some parent => path :: selfAndAncestors n parent

/-- The path text and those of all its ancestors, nearest first. Every parent is shorter than its
    path. -/
def ancestors (path : String) : List String :=
  selfAndAncestors path.length path

/-! ## The extension of the last component -/

/-- What stands behind the last dot of a name, unless the name is all there is before it or there
    is no dot. -/
def extensionOfName (name : List Char) : Option (List Char) :=
  let reversed := name.reverse
  let extension := reversed.takeWhile (· != '.')
  match reversed.dropWhile (· != '.') with
  | [] => none
  | [_] => none
  | _ :: _ => if name == ['.', '.'] then none else some extension.reverse

/-- The extension of the last component, if that is a name and has one. -/
def extension? (path : String) : Option String :=
  match (leadingPieces path.toList).getLast? with
  | none => none
  | some name => if name == ['.'] then none else (extensionOfName name).map String.ofList

/-! ## Absolute path texts -/

/-- The path text made absolute below the directory `base`: pieces that say nothing and repeated
    slashes go, parent components and a slash at the end stay, and so do exactly two slashes at the
    beginning. -/
def absolute (base path : String) : String :=
  let cs := path.toList
  let pieces := (Text.splitChars '/' cs).filter (!isSilent ·)
  let start :=
    if isAbsolute cs then
      if ['/', '/'].isPrefixOf cs && !(['/', '/', '/'].isPrefixOf cs) then ['/', '/'] else ['/']
    else base.toList
  let full := pieces.foldl joinChars start
  String.ofList (if cs.getLast? == some '/' then joinChars full [] else full)

end Scaffold.Path
