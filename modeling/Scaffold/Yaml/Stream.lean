import Scaffold.Yaml.Scalar
import Scaffold.Yaml.Token

set_option autoImplicit false

/-! # The tokens of a YAML stream

The structure of a stream lies in its indentation and in its colons, and both are told only when it
is too late: a text turns out to be a key when the colon behind it is reached. So wherever a key may
begin, its place among the tokens is remembered, and the colon puts the tokens that begin a mapping
and a key there. A remembered place is given up when its line ends or it lies too far back; in the
column of a mapping's keys that is an error. -/

namespace Scaffold.Yaml

/-- A place where a key may have begun. -/
structure KeyPlace where
  /-- Whether there has to be a key here. -/
  isRequired : Bool
  /-- The number of tokens before. -/
  tokenIndex : Nat
  index : Nat
  line : Nat
  column : Nat

/-- A stream that is being cut into tokens. -/
structure Scanner where
  cursor : Cursor
  tokens : Array Token
  /-- The column of the innermost block collection, or -1 outside of all. -/
  indent : Int
  /-- The columns of the collections around it. -/
  outerIndents : List Int
  /-- The place of a key in each flow collection that is open, innermost first, then in the block
      collection around them. -/
  keyPlaces : List (Option KeyPlace)
  /-- Whether a key may begin here. -/
  allowsKey : Bool

namespace Scanner

/-- The beginning of a stream. -/
def start (text : List Char) : Scanner :=
  ⟨.start text, #[], -1, [], [none], true⟩

/-- Whether a flow collection is open. -/
def inFlow (s : Scanner) : Bool :=
  1 < s.keyPlaces.length

/-- Adds a token and moves the cursor. -/
def push (s : Scanner) (token : Token) (cursor : Cursor) : Scanner :=
  { s with tokens := s.tokens.push token, cursor := cursor }

/-- Adds a token of one character. -/
def pushMark (s : Scanner) (token : Token) : Scanner :=
  s.push token (s.cursor.skip 1)

/-! ## Indentation -/

/-- Begins a block collection at a column right of the innermost one, with a token put at a place
    among the tokens. -/
def rollIndent (s : Scanner) (column : Nat) (tokenIndex : Nat) (token : Token) : Scanner :=
  if !s.inFlow && decide (s.indent < column) then
    { s with
      outerIndents := s.indent :: s.outerIndents
      indent := column
      tokens := s.tokens.insertIdxIfInBounds tokenIndex token }
  else s

/-- Ends the block collections right of a column, of at most as many as there are. -/
def unroll (column : Int) : Nat → Scanner → Scanner
  | 0, s => s
  | open' + 1, s =>
    if column < s.indent then
      unroll column open'
        { s with
          tokens := s.tokens.push .blockEnd
          indent := s.outerIndents.headD (-1)
          outerIndents := s.outerIndents.drop 1 }
    else s

/-- Ends the block collections right of a column. -/
def unrollIndent (s : Scanner) (column : Int) : Scanner :=
  if s.inFlow then s else unroll column (s.outerIndents.length + 1) s

/-! ## Keys -/

/-- Gives up the remembered places that lie on another line or too far back, unless there has to be
    a key. -/
def dropStaleKeys? (s : Scanner) : Option Scanner :=
  let isStale (p : KeyPlace) : Bool :=
    decide (p.line < s.cursor.line) || decide (p.index + 1024 < s.cursor.index)
  let keyPlaces := s.keyPlaces.map fun place => place.filter (!isStale ·)
  if s.keyPlaces.any fun place => place.any fun p => isStale p && p.isRequired then none
  else some { s with keyPlaces := keyPlaces }

/-- Gives up the innermost remembered place, unless there has to be a key. -/
def dropKey? (s : Scanner) : Option Scanner :=
  if (s.keyPlaces.headD none).any (·.isRequired) then none
  else some { s with keyPlaces := none :: s.keyPlaces.drop 1 }

/-- Remembers the place if a key may begin here. -/
def saveKey? (s : Scanner) : Option Scanner :=
  if s.allowsKey then
    let place : KeyPlace :=
      { isRequired := !s.inFlow && s.indent == s.cursor.column
        tokenIndex := s.tokens.size
        index := s.cursor.index
        line := s.cursor.line
        column := s.cursor.column }
    s.dropKey?.map fun s => { s with keyPlaces := some place :: s.keyPlaces.drop 1 }
  else some s

/-! ## Blanks between tokens -/

/-- Moves past blanks, comments and line breaks. Tabs only count as blanks where no key may begin.
    A byte order mark may stand at the very beginning. -/
def skipBlanks : Nat → Scanner → Scanner
  | 0, s => s
  | room + 1, s =>
    let k := s.cursor
    let k := if k.index == 0 && k.isAt '\uFEFF' then k.skip 1 else k
    let takesTabs := s.inFlow || !s.allowsKey
    let k := k.skipWhile fun c => c == ' ' || (takesTabs && c == '\t')
    let k := if k.isAt '#' then k.skipWhile (!isBreak ·) else k
    if k.atBreak 0 then
      skipBlanks room { s with cursor := k.skipBreak, allowsKey := s.allowsKey || !s.inFlow }
    else { s with cursor := k }

/-! ## Tokens -/

/-- Ends what is open before a token that belongs to the stream and not to a document. -/
def closeAll? (s : Scanner) : Option Scanner :=
  (s.unrollIndent (-1)).dropKey?.map fun s => { s with allowsKey := false }

/-- Takes the beginning of a flow collection. -/
def openFlow? (s : Scanner) (token : Token) : Option Scanner :=
  s.saveKey?.map fun s =>
    { s.pushMark token with keyPlaces := none :: s.keyPlaces, allowsKey := true }

/-- Takes the end of a flow collection. -/
def closeFlow? (s : Scanner) (token : Token) : Option Scanner :=
  s.dropKey?.map fun s =>
    { s.pushMark token with
      keyPlaces := if s.inFlow then s.keyPlaces.drop 1 else s.keyPlaces
      allowsKey := false }

/-- Takes the comma between two entries. -/
def flowEntry? (s : Scanner) : Option Scanner :=
  s.dropKey?.map fun s => { s.pushMark .flowEntry with allowsKey := true }

/-- Takes the indicator of an entry of a block sequence. -/
def blockEntry? (s : Scanner) : Option Scanner :=
  if !s.inFlow && !s.allowsKey then none
  else
    let s := s.rollIndent s.cursor.column s.tokens.size .blockSequenceStart
    s.dropKey?.map fun s => { s.pushMark .blockEntry with allowsKey := true }

/-- Takes the indicator of a key. -/
def key? (s : Scanner) : Option Scanner :=
  if !s.inFlow && !s.allowsKey then none
  else
    let s := s.rollIndent s.cursor.column s.tokens.size .blockMappingStart
    s.dropKey?.map fun s => { s.pushMark .key with allowsKey := !s.inFlow }

/-- Takes the indicator of a value. What was remembered as the place of a key is one now. -/
def value? (s : Scanner) : Option Scanner :=
  match s.keyPlaces.headD none with
  | some place =>
    let s := { s with tokens := s.tokens.insertIdxIfInBounds place.tokenIndex .key }
    let s := s.rollIndent place.column place.tokenIndex .blockMappingStart
    some
      { s.pushMark .value with keyPlaces := none :: s.keyPlaces.drop 1, allowsKey := false }
  | none =>
    if !s.inFlow && !s.allowsKey then none
    else
      let s := s.rollIndent s.cursor.column s.tokens.size .blockMappingStart
      some { s.pushMark .value with allowsKey := !s.inFlow }

/-- Takes a token that may be a key or belong to one. -/
def keyToken? (s : Scanner) (read? : Cursor → Option (Token × Cursor)) : Option Scanner :=
  match s.saveKey?, read? s.cursor with
  | some s, some (token, k) => some { s.push token k with allowsKey := false }
  | _, _ => none

/-- Takes a plain scalar. Behind a line break a key may begin. -/
def plain? (s : Scanner) : Option Scanner :=
  let k := s.cursor
  match s.saveKey?,
      plainScalar? s.inFlow (s.indent + 1).toNat k.rest.length.succ [] .empty k with
  | some s, some (text, isBroken, k) =>
    some { s.push (.scalar text.reverse true) k with allowsKey := isBroken }
  | _, _ => none

/-- Takes a block scalar. -/
def block? (s : Scanner) (literal : Bool) : Option Scanner :=
  match s.dropKey?, blockScalar? literal s.indent (s.cursor.skip 1) with
  | some s, some (text, k) => some { s.push (.scalar text false) k with allowsKey := true }
  | _, _ => none

/-- Reads a quoted scalar from its opening quote. -/
def quoted? (single : Bool) (k : Cursor) : Option (Token × Cursor) :=
  (quotedScalar? single k.rest.length.succ [] (k.skip 1)).map fun (text, k) =>
    (.scalar text.reverse false, k)

/-- Whether a plain scalar may begin here. -/
def startsPlain (inFlow : Bool) (k : Cursor) : Bool :=
  let indicators : List Char :=
    ['-', '?', ':', ',', '[', ']', '{', '}', '#', '&', '*', '!', '|', '>', '\'', '"', '%', '@', '`']
  (!k.atBlank 0 && !(k.peek 0).any indicators.contains) ||
    (k.isAt '-' && !k.atGap 1) ||
    (!inFlow && (k.isAt '?' || k.isAt ':') && !k.atBlank 1)

/-- Takes the next token of a text that is not at its end. -/
def next? (s : Scanner) : Option Scanner :=
  let k := s.cursor
  let isMark (c : Char) : Bool := k.isAt c && (s.inFlow || k.atBlank 1)
  if k.column == 0 && k.isAt '%' then
    match s.closeAll?, directive? k with
    | some s, some (token, k) => some (s.push token k)
    | _, _ => none
  else if k.atMarker '-' then s.closeAll?.map (·.push .documentStart (k.skip 3))
  else if k.atMarker '.' then s.closeAll?.map (·.push .documentEnd (k.skip 3))
  else if k.isAt '[' then s.openFlow? .flowSequenceStart
  else if k.isAt '{' then s.openFlow? .flowMappingStart
  else if k.isAt ']' then s.closeFlow? .flowSequenceEnd
  else if k.isAt '}' then s.closeFlow? .flowMappingEnd
  else if k.isAt ',' then s.flowEntry?
  else if k.isAt '-' && k.atBlank 1 then s.blockEntry?
  else if isMark '?' then s.key?
  else if isMark ':' then s.value?
  else if k.isAt '*' then s.keyToken? fun k => (name? k).map fun (name, k) => (.alias name, k)
  else if k.isAt '&' then s.keyToken? fun k => (name? k).map fun (name, k) => (.anchor name, k)
  else if k.isAt '!' then s.keyToken? (tag? s.inFlow)
  else if k.isAt '|' && !s.inFlow then s.block? true
  else if k.isAt '>' && !s.inFlow then s.block? false
  else if k.isAt '\'' then s.keyToken? (quoted? true)
  else if k.isAt '"' then s.keyToken? (quoted? false)
  else if startsPlain s.inFlow k then s.plain?
  else none

/-- Takes all tokens. Every token but the last takes at least one character. -/
def run? : Nat → Scanner → Option (Array Token)
  | 0, _ => none
  | room + 1, s =>
    let s := skipBlanks s.cursor.rest.length.succ s
    match s.dropStaleKeys? with
    | none => none
    | some s =>
      let s := s.unrollIndent s.cursor.column
      if s.cursor.atEnd then s.closeAll?.map fun s => s.tokens.push .streamEnd
      else (next? s).bind (run? room)

end Scanner

/-- The tokens of a stream, unless something in it is no token. -/
def tokens? (text : List Char) : Option (List Token) :=
  if text.all isAllowed then
    (Scanner.run? text.length.succ (.start text)).map Array.toList
  else none

end Scaffold.Yaml
