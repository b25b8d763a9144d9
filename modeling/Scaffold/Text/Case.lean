import Scaffold.Text.Case.Mapping
import Scaffold.Text.Case.Context

set_option autoImplicit false

/-! # Upper and lower case of texts

Upper case maps every character by itself. Lower case does too, but for the capital sigma: it
becomes the final small sigma where a cased letter stands before it and none after it, both times
past the characters that case ignores. -/

namespace Scaffold.Text

/-- The characters in upper case. -/
def upperChars (cs : List Char) : List Char :=
  cs.flatMap upperMapping.apply

/-- The text in upper case. -/
def upper (s : String) : String :=
  String.ofList (upperChars s.toList)

/-- Whether the first character that case does not ignore is a cased letter. -/
def leadsToCased : List Char → Bool
  | [] => false
  | c :: cs => if isCaseIgnorable c then leadsToCased cs else isCased c

/-- The lower case of characters that follow `before`, which is in reverse order. -/
def lowerAfter (before : List Char) : List Char → List Char
  | [] => []
  | c :: cs =>
    let image :=
      if c = 'Σ' then
        if leadsToCased before && !leadsToCased cs then ['ς'] else ['σ']
      else lowerMapping.apply c
    image ++ lowerAfter (c :: before) cs

/-- The characters in lower case. -/
def lowerChars (cs : List Char) : List Char :=
  lowerAfter [] cs

/-- The text in lower case. -/
def lower (s : String) : String :=
  String.ofList (lowerChars s.toList)

end Scaffold.Text
