set_option autoImplicit false

/-! # Taking texts apart

Texts are split at a character into the pieces between its occurrences, or into their lines. Both
work on lists of characters; the versions on strings convert. -/

namespace Scaffold.Text

/-- The byte order mark. -/
def byteOrderMark : Char := '\uFEFF'

/-- The rest of a text behind a beginning, if it begins so. -/
def dropPrefix? : List Char → List Char → Option (List Char)
  | [], cs => some cs
  | _ :: _, [] => none
  | p :: ps, c :: cs => if p = c then dropPrefix? ps cs else none

/-- The pieces between the occurrences of `sep`. There is one piece more than there are
    occurrences, so always at least one. -/
def splitChars (sep : Char) : List Char → List (List Char)
  | [] => [[]]
  | c :: cs =>
    if c = sep then [] :: splitChars sep cs
    else
      match splitChars sep cs with
      | [] => [[c]]
      | piece :: pieces => (c :: piece) :: pieces

/-- The pieces of a string between the occurrences of `sep`. -/
def split (sep : Char) (s : String) : List String :=
  (splitChars sep s.toList).map String.ofList

/-- A line without the carriage return that belongs to its line feed. -/
def dropReturn : List Char → List Char
  | [] => []
  | ['\r'] => []
  | c :: cs => c :: dropReturn cs

/-- The lines among pieces cut at line feeds: every piece but the last was ended by a line feed,
    and the last one is a line only if something stands in it. -/
def linesOfPieces : List (List Char) → List (List Char)
  | [] => []
  | [[]] => []
  | [piece] => [piece]
  | piece :: pieces => dropReturn piece :: linesOfPieces pieces

/-- The lines of a text. A line ends with a line feed or with a carriage return and a line feed;
    the end of the text ends its last line too. -/
def lineChars (cs : List Char) : List (List Char) :=
  linesOfPieces (splitChars '\n' cs)

/-- The lines of a string. -/
def lines (s : String) : List String :=
  (lineChars s.toList).map String.ofList

/-- The text without one byte order mark at its beginning. -/
def dropMark (s : String) : String :=
  match s.toList with
  | [] => s
  | c :: cs => if c = byteOrderMark then String.ofList cs else s

end Scaffold.Text
