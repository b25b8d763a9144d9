import Scaffold.Json.Token

set_option autoImplicit false

/-! # JSON values

A JSON text holds one value. The value is built up token by token; the collections that are still
open are kept on a stack, innermost first. Members of an object keep their order, and a name may
come more than once. -/

namespace Scaffold

/-- A JSON value. -/
inductive Json where
  | null
  | bool (b : Bool)
  | number (digits : List Char)
  | string (parts : List Json.Part)
  | array (items : List Json)
  | object (members : List (List Json.Part × Json))

namespace Json

/-- A collection that is still open, with what it holds so far in reverse order. -/
inductive Frame
  | array (items : List Json)
  /-- An object and the name of the member that comes next, once it is read. -/
  | object (members : List (List Part × Json)) (name : List Part)

/-- What may come next. -/
inductive Expected
  | value
  /-- A value, or the end of the array that was just opened. -/
  | valueOrEnd
  | name
  /-- A name, or the end of the object that was just opened. -/
  | nameOrEnd
  | colon
  | commaOrEnd
  /-- Nothing: the value is complete. -/
  | nothing (value : Json)

/-- The open collections, and what may come next. -/
structure Builder where
  frames : List Frame
  expected : Expected

namespace Builder

/-- Puts a complete value where it belongs. -/
def complete (value : Json) : List Frame → Builder
  | [] => ⟨[], .nothing value⟩
  | .array items :: frames => ⟨.array (value :: items) :: frames, .commaOrEnd⟩
  | .object members name :: frames => ⟨.object ((name, value) :: members) [] :: frames, .commaOrEnd⟩

/-- Closes the innermost collection with a token. -/
def close? (frames : List Frame) (token : Token) : Option Builder :=
  match frames, token with
  | .array items :: outer, .closeBracket => some (complete (.array items.reverse) outer)
  | .object members _ :: outer, .closeBrace => some (complete (.object members.reverse) outer)
  | _, _ => none

/-- Takes a token where a value has to come. -/
def takeValue? (frames : List Frame) : Token → Option Builder
  | .null => some (complete .null frames)
  | .bool b => some (complete (.bool b) frames)
  | .number digits => some (complete (.number digits) frames)
  | .string parts => some (complete (.string parts) frames)
  | .openBracket => some ⟨.array [] :: frames, .valueOrEnd⟩
  | .openBrace => some ⟨.object [] [] :: frames, .nameOrEnd⟩
  | .closeBracket | .closeBrace | .colon | .comma => none

/-- Takes a token where the name of a member has to come. -/
def takeName? (frames : List Frame) (token : Token) : Option Builder :=
  match frames, token with
  | .object members _ :: outer, .string name => some ⟨.object members name :: outer, .colon⟩
  | _, _ => none

/-- Takes one token. -/
def step? (b : Builder) (token : Token) : Option Builder :=
  match b.expected with
  | .value => takeValue? b.frames token
  | .valueOrEnd =>
    if token = .closeBracket then close? b.frames token else takeValue? b.frames token
  | .name => takeName? b.frames token
  | .nameOrEnd =>
    if token = .closeBrace then close? b.frames token else takeName? b.frames token
  | .colon => if token = .colon then some ⟨b.frames, .value⟩ else none
  | .commaOrEnd =>
    if token = .comma then
      match b.frames with
      | .array _ :: _ => some ⟨b.frames, .value⟩
      | .object _ _ :: _ => some ⟨b.frames, .name⟩
      | [] => none
    else close? b.frames token
  | .nothing _ => none

/-- The value, if it is complete. -/
def finish? (b : Builder) : Option Json :=
  match b.expected with
  | .nothing value => some value
  | _ => none

end Builder

/-- The value that the tokens make up. -/
def ofTokens? (tokens : List Token) : Option Json :=
  (tokens.foldlM Builder.step? ⟨[], .value⟩).bind Builder.finish?

/-- Reads the value that a text holds. -/
def read? (text : String) : Option Json :=
  (tokens? text.toList).bind ofTokens?

end Json

end Scaffold
