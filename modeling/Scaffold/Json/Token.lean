import Scaffold.Text.Hex

set_option autoImplicit false

/-! # JSON tokens

A JSON text is cut into tokens character by character. A string is kept as its parts, because an
escape may write half of a surrogate pair: such a string is a token, but it has no text unless its
halves pair up. -/

namespace Scaffold.Json

/-- A part of a string: a character, or one half of a surrogate pair written by an escape. -/
inductive Part
  | char (c : Char)
  | half (code : Nat)
  deriving DecidableEq, Repr

/-- Whether the code is that of the first half of a pair. -/
def isHighHalf (code : Nat) : Bool :=
  0xD800 ≤ code && code ≤ 0xDBFF

/-- Whether the code is that of the second half of a pair. -/
def isLowHalf (code : Nat) : Bool :=
  0xDC00 ≤ code && code ≤ 0xDFFF

/-- The part that an escape with the code writes. -/
def Part.ofCode (code : Nat) : Part :=
  if isHighHalf code || isLowHalf code then .half code else .char (Char.ofNat code)

/-- The text of a string, if its halves pair up. -/
def textOfParts? : List Part → Option (List Char)
  | [] => some []
  | .char c :: parts => (textOfParts? parts).map (c :: ·)
  | [.half _] => none
  | .half _ :: .char _ :: _ => none
  | .half high :: .half low :: parts =>
    if isHighHalf high && isLowHalf low then
      (textOfParts? parts).map
        (Char.ofNat (0x10000 + (high - 0xD800) * 0x400 + (low - 0xDC00)) :: ·)
    else none

/-- A token of a JSON text. -/
inductive Token
  | openBrace
  | closeBrace
  | openBracket
  | closeBracket
  | colon
  | comma
  | null
  | bool (b : Bool)
  | number (digits : List Char)
  | string (parts : List Part)
  deriving DecidableEq, Repr

/-! ## Numbers and words -/

/-- Whether the characters are one or more digits and then, if `more` holds of what follows,
    anything. -/
def digitsThen (more : List Char → Bool) (cs : List Char) : Bool :=
  (cs.head?.map Char.isDigit).getD false && more (cs.dropWhile Char.isDigit)

/-- Whether the characters are an exponent or nothing. -/
def isExponent : List Char → Bool
  | [] => true
  | e :: cs =>
    (e == 'e' || e == 'E') &&
      match cs with
      | s :: ds => digitsThen List.isEmpty (if s == '+' || s == '-' then ds else cs)
      | [] => false

/-- Whether the characters are a fraction and an exponent, each of them or not. -/
def isFraction : List Char → Bool
  | '.' :: cs => digitsThen isExponent cs
  | cs => isExponent cs

/-- Whether the characters are a number without its sign. A leading zero stands alone. -/
def isUnsigned : List Char → Bool
  | '0' :: cs => isFraction cs
  | cs => digitsThen isFraction cs

/-- Whether the characters are a number. -/
def isNumber : List Char → Bool
  | '-' :: cs => isUnsigned cs
  | cs => isUnsigned cs

/-- The token that a word is. -/
def wordToken? (word : List Char) : Option Token :=
  if word = ['n', 'u', 'l', 'l'] then some .null
  else if word = ['t', 'r', 'u', 'e'] then some (.bool true)
  else if word = ['f', 'a', 'l', 's', 'e'] then some (.bool false)
  else none

/-- The character that an escape letter stands for. -/
def escape? (c : Char) : Option Char :=
  if c = '"' || c = '\\' || c = '/' then some c
  else if c = 'b' then some '\x08'
  else if c = 'f' then some '\x0c'
  else if c = 'n' then some '\n'
  else if c = 'r' then some '\r'
  else if c = 't' then some '\t'
  else none

/-! ## Cutting -/

/-- Where the cutter stands. What it collects is in reverse order. -/
inductive Mode
  | between
  | inNumber (digits : List Char)
  | inWord (letters : List Char)
  | inString (parts : List Part)
  | inEscape (parts : List Part)
  /-- Inside an escape with a code, of which `owed` digits are missing. -/
  | inCode (parts : List Part) (owed code : Nat)
  deriving DecidableEq, Repr

/-- The tokens cut off so far, the last one first, and where the cutter stands. -/
structure Cutter where
  tokens : List Token
  mode : Mode
  deriving DecidableEq, Repr

namespace Cutter

/-- Takes a character that begins something or stands alone. -/
def begin? (tokens : List Token) (c : Char) : Option Cutter :=
  if c = ' ' || c = '\t' || c = '\n' || c = '\r' then some ⟨tokens, .between⟩
  else if c = '{' then some ⟨.openBrace :: tokens, .between⟩
  else if c = '}' then some ⟨.closeBrace :: tokens, .between⟩
  else if c = '[' then some ⟨.openBracket :: tokens, .between⟩
  else if c = ']' then some ⟨.closeBracket :: tokens, .between⟩
  else if c = ':' then some ⟨.colon :: tokens, .between⟩
  else if c = ',' then some ⟨.comma :: tokens, .between⟩
  else if c = '"' then some ⟨tokens, .inString []⟩
  else if c = '-' || c.isDigit then some ⟨tokens, .inNumber [c]⟩
  else if c.isLower then some ⟨tokens, .inWord [c]⟩
  else none

/-- Whether a number may go on with the character. -/
def isNumberChar (c : Char) : Bool :=
  c.isDigit || c == '.' || c == 'e' || c == 'E' || c == '+' || c == '-'

/-- Ends a number. -/
def endNumber? (tokens : List Token) (digits : List Char) : Option (List Token) :=
  if isNumber digits.reverse then some (.number digits.reverse :: tokens) else none

/-- Ends a word. -/
def endWord? (tokens : List Token) (letters : List Char) : Option (List Token) :=
  (wordToken? letters.reverse).map (· :: tokens)

/-- Takes one character. -/
def step? (k : Cutter) (c : Char) : Option Cutter :=
  match k.mode with
  | .between => begin? k.tokens c
  | .inNumber digits =>
    if isNumberChar c then some ⟨k.tokens, .inNumber (c :: digits)⟩
    else (endNumber? k.tokens digits).bind (begin? · c)
  | .inWord letters =>
    if c.isLower then some ⟨k.tokens, .inWord (c :: letters)⟩
    else (endWord? k.tokens letters).bind (begin? · c)
  | .inString parts =>
    if c = '"' then some ⟨.string parts.reverse :: k.tokens, .between⟩
    else if c = '\\' then some ⟨k.tokens, .inEscape parts⟩
    else if c.toNat < 0x20 then none
    else some ⟨k.tokens, .inString (.char c :: parts)⟩
  | .inEscape parts =>
    if c = 'u' then some ⟨k.tokens, .inCode parts 4 0⟩
    else (escape? c).map fun e => ⟨k.tokens, .inString (.char e :: parts)⟩
  | .inCode parts owed code =>
    (Text.hexValue? c).map fun d =>
      if owed ≤ 1 then ⟨k.tokens, .inString (.ofCode (code * 16 + d) :: parts)⟩
      else ⟨k.tokens, .inCode parts (owed - 1) (code * 16 + d)⟩

/-- The tokens, if nothing is left unfinished. -/
def finish? (k : Cutter) : Option (List Token) :=
  match k.mode with
  | .between => some k.tokens.reverse
  | .inNumber digits => (endNumber? k.tokens digits).map List.reverse
  | .inWord letters => (endWord? k.tokens letters).map List.reverse
  | .inString _ | .inEscape _ | .inCode _ _ _ => none

end Cutter

/-- The tokens of a text, unless something in it is no token. -/
def tokens? (cs : List Char) : Option (List Token) :=
  (cs.foldlM Cutter.step? ⟨[], .between⟩).bind Cutter.finish?

end Scaffold.Json
