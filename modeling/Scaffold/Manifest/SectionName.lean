set_option autoImplicit false

/-! # Section names

The header of a section holds the section's name in brackets. Brackets inside the name nest, and
what stands around the outer pair is ignored. -/

namespace Scaffold.SectionName

/-- The characters up to the bracket that closes `depth` inner brackets and the outer one. -/
def untilClosed : Nat → List Char → Option (List Char)
  | _, [] => none
  | depth, c :: cs =>
    if c = ']' then
      match depth with
      | 0 => some []
      | inner + 1 => (untilClosed inner cs).map (c :: ·)
    else if c = '[' then (untilClosed (depth + 1) cs).map (c :: ·)
    else (untilClosed depth cs).map (c :: ·)

/-- The name between the first opening bracket and the bracket that closes it. -/
def inBrackets? (token : List Char) : Option (List Char) :=
  match token.dropWhile (· != '[') with
  | [] => none
  | _ :: rest => untilClosed 0 rest

/-- The name in the brackets of a header, not trimmed. -/
def parse? (token : String) : Option String :=
  (inBrackets? token.toList).map String.ofList

end Scaffold.SectionName
