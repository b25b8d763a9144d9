import Scaffold.Variables

set_option autoImplicit false

/-! # Template texts

A template text is read once, from left to right, as a sequence of pieces and a tail. A piece is a
character that stands for itself, an escaped dollar sign, or a reference to a variable; the tail is
what a text that stops early leaves unfinished. Reading does not look at any variables, so the value
of a reference is never read again, and it never fails: what is no reference stands for itself. -/

namespace Scaffold.Template

/-- One piece of a template text. -/
inductive Piece
  /-- A character other than the dollar sign. -/
  | char (c : Char)
  /-- Two dollar signs. -/
  | escapedDollar
  /-- A dollar sign and a character that makes nothing of it. -/
  | dollarAnd (c : Char)
  /-- A dollar sign, a brace and a character that makes nothing of them. -/
  | braceAnd (c : Char)
  /-- A dollar sign and a brace in front of a dollar sign that begins the next piece. -/
  | strayBrace
  /-- A complete reference with the access between its braces. -/
  | reference (access : List Char)
  deriving DecidableEq, Repr

/-- What the end of a text leaves unfinished. -/
inductive Tail
  | none
  | dollar
  | brace
  /-- An opened reference and the text behind the opener. -/
  | unclosed (text : List Char)
  deriving DecidableEq, Repr

/-- A template text as it was read. -/
structure Reading where
  pieces : List Piece
  tail : Tail
  deriving DecidableEq, Repr

/-! ## Reading -/

/-- Where the reader stands. Accesses are collected in reverse order. -/
inductive Mode
  /-- Between two pieces. -/
  | text
  /-- Behind a dollar sign. -/
  | dollar
  /-- Behind a dollar sign and a brace. -/
  | brace
  /-- Inside a reference. -/
  | inside (access : List Char)
  /-- Inside a reference, behind a closing brace that is not in `access`. -/
  | closing (access : List Char)
  deriving DecidableEq, Repr

/-- The pieces read so far, the last one first, and where the reader stands. -/
structure Progress where
  pieces : List Piece
  mode : Mode
  deriving DecidableEq, Repr

/-- Completes a piece. -/
def Progress.push (p : Progress) (piece : Piece) (mode : Mode) : Progress :=
  ⟨piece :: p.pieces, mode⟩

/-- Reads one character. -/
def Progress.step (p : Progress) (c : Char) : Progress :=
  match p.mode with
  | .text => if c = '$' then ⟨p.pieces, .dollar⟩ else p.push (.char c) .text
  | .dollar =>
    if c = '{' then ⟨p.pieces, .brace⟩
    else if c = '$' then p.push .escapedDollar .text
    else p.push (.dollarAnd c) .text
  | .brace =>
    if c = '{' then ⟨p.pieces, .inside []⟩
    else if c = '$' then p.push .strayBrace .dollar
    else p.push (.braceAnd c) .text
  | .inside access =>
    if c = '}' then ⟨p.pieces, .closing access⟩ else ⟨p.pieces, .inside (c :: access)⟩
  | .closing access =>
    if c = '}' then p.push (.reference access.reverse) .text
    else ⟨p.pieces, .inside (c :: '}' :: access)⟩

/-- The tail that the end of the text leaves. -/
def Mode.tail : Mode → Tail
  | .text => .none
  | .dollar => .dollar
  | .brace => .brace
  | .inside access => .unclosed access.reverse
  | .closing access => .unclosed ('}' :: access).reverse

/-- Ends the reading. -/
def Progress.finish (p : Progress) : Reading :=
  ⟨p.pieces.reverse, p.mode.tail⟩

/-- Reads a template text. -/
def read (cs : List Char) : Reading :=
  (cs.foldl Progress.step ⟨[], .text⟩).finish

/-! ## Values -/

/-- The text that a piece stands for. A reference to an unknown variable stands for nothing. -/
def Piece.value (vars : VariableTable) : Piece → List Char
  | .char c => [c]
  | .escapedDollar => ['$']
  | .dollarAnd c => ['$', c]
  | .braceAnd c => ['$', '{', c]
  | .strayBrace => ['$', '{']
  | .reference access =>
    match vars.resolve (String.ofList access) with
    | some text => text.toList
    | none => []

/-- A tail stands for itself. -/
def Tail.value : Tail → List Char
  | .none => []
  | .dollar => ['$']
  | .brace => ['$', '{']
  | .unclosed text => '$' :: '{' :: '{' :: text

/-- The text that a reading stands for. -/
def Reading.value (vars : VariableTable) (r : Reading) : List Char :=
  r.pieces.flatMap (Piece.value vars) ++ r.tail.value

end Scaffold.Template

namespace Scaffold

/-- The text with every reference replaced by the value of its variable. -/
def substitute (vars : VariableTable) (text : String) : String :=
  String.ofList ((Template.read text.toList).value vars)

end Scaffold
