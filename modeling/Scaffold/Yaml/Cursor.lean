set_option autoImplicit false

/-! # Reading positions in YAML

A cursor is the rest of a text and the position that it has been read to. The classes of characters
that YAML's rules speak of come first: what may stand in a text at all, what breaks a line, what may
stand in a name. -/

namespace Scaffold.Yaml

/-- Whether a character may stand in a text. -/
def isAllowed (c : Char) : Bool :=
  let n := c.toNat
  n == 0x09 || n == 0x0A || n == 0x0D || (0x20 ≤ n && n ≤ 0x7E) || n == 0x85 ||
    (0xA0 ≤ n && n ≤ 0xD7FF) || (0xE000 ≤ n && n ≤ 0xFFFD) || 0x10000 ≤ n

/-- Whether a character breaks a line. -/
def isBreak (c : Char) : Bool :=
  c == '\r' || c == '\n' || c == '\u0085' || c == '\u2028' || c == '\u2029'

/-- Whether a character is a space or a tab. -/
def isGap (c : Char) : Bool :=
  c == ' ' || c == '\t'

/-- Whether a character may stand in a name. -/
def isNameChar (c : Char) : Bool :=
  c.isAlphanum || c == '_' || c == '-'

/-- The rest of a text and the position it begins at. -/
structure Cursor where
  rest : List Char
  /-- The number of characters before. -/
  index : Nat
  line : Nat
  column : Nat

namespace Cursor

/-- The beginning of a text. -/
def start (text : List Char) : Cursor :=
  ⟨text, 0, 0, 0⟩

/-- The character `n` places on. -/
def peek (k : Cursor) (n : Nat) : Option Char :=
  k.rest[n]?

/-- Whether the next character is `c`. -/
def isAt (k : Cursor) (c : Char) : Bool :=
  k.peek 0 == some c

/-- Whether the end of the text is reached. -/
def atEnd (k : Cursor) : Bool :=
  k.rest.isEmpty

/-- Whether the character `n` places on breaks a line. -/
def atBreak (k : Cursor) (n : Nat) : Bool :=
  (k.peek n).any isBreak

/-- Whether the next character breaks a line or there is none. -/
def atBreakOrEnd (k : Cursor) : Bool :=
  (k.peek 0).all isBreak

/-- Whether the character `n` places on is a space or a tab. -/
def atGap (k : Cursor) (n : Nat) : Bool :=
  (k.peek n).any isGap

/-- Whether the character `n` places on is a space, a tab or a break, or there is none. -/
def atBlank (k : Cursor) (n : Nat) : Bool :=
  (k.peek n).all fun c => isGap c || isBreak c

/-- Moves on by `n` characters of the same line. -/
def skip (k : Cursor) (n : Nat) : Cursor :=
  ⟨k.rest.drop n, k.index + n, k.line, k.column + n⟩

/-- Moves past the characters of the same line for which `p` holds. -/
def skipWhile (k : Cursor) (p : Char → Bool) : Cursor :=
  k.skip (k.rest.takeWhile p).length

/-- Moves past a line break. A carriage return and a line feed are one break. -/
def skipBreak (k : Cursor) : Cursor :=
  match k.rest with
  | '\r' :: '\n' :: rest => ⟨rest, k.index + 2, k.line + 1, 0⟩
  | _ :: rest => ⟨rest, k.index + 1, k.line + 1, 0⟩
  | [] => k

/-- The text that a line break stands for: a line feed, or the separator as it is. -/
def breakText (k : Cursor) : List Char :=
  match k.rest with
  | c :: _ =>
    if c == '\u2028' || c == '\u2029' then [c] else if isBreak c then ['\n'] else []
  | [] => []

/-- Moves past spaces, tabs and a comment, to the end of the line or the first other character. -/
def skipToComment (k : Cursor) : Cursor :=
  let k := k.skipWhile isGap
  if k.isAt '#' then k.skipWhile (!isBreak ·) else k

/-- Moves past the break at the end of the line, if there is one. -/
def endLine (k : Cursor) : Cursor :=
  if k.atBreak 0 then k.skipBreak else k

/-- Whether a marker of three characters `c` stands alone at the beginning of the line. -/
def atMarker (k : Cursor) (c : Char) : Bool :=
  k.column == 0 && k.isAt c && k.peek 1 == some c && k.peek 2 == some c && k.atBlank 3

/-- Whether the beginning or the end of a document is marked here. -/
def atDocumentMarker (k : Cursor) : Bool :=
  k.atMarker '-' || k.atMarker '.'

end Cursor

end Scaffold.Yaml
