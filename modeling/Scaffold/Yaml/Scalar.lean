import Scaffold.Text.Hex
import Scaffold.Yaml.Cursor

set_option autoImplicit false

/-! # YAML scalars

A scalar is written plain, in quotes or as a block. In a plain or quoted scalar a line break between
two words folds to a space, and further breaks stand for themselves; the blanks around the breaks
are dropped. In a block the lines are kept, or folded unless a line begins with a blank; breaks at
the end are chomped.

Every loop moves its cursor on, so the number of characters that are left bounds it. -/

namespace Scaffold.Yaml

/-! ## The gaps between words -/

/-- What stands between two words of a scalar. -/
structure Gap where
  /-- The blanks on the same line, in reverse order. -/
  blanks : List Char
  /-- The first line break. -/
  firstBreak : List Char
  /-- The line breaks after it. -/
  laterBreaks : List Char
  /-- Whether there is a line break. -/
  isBroken : Bool

namespace Gap

/-- No gap. -/
def empty : Gap :=
  ⟨[], [], [], false⟩

/-- The gap that begins with an escaped line break. -/
def escapedBreak : Gap :=
  ⟨[], [], [], true⟩

/-- The text that the gap stands for. -/
def text (g : Gap) : List Char :=
  if g.isBroken then
    if g.firstBreak == ['\n'] then
      if g.laterBreaks.isEmpty then [' '] else g.laterBreaks
    else g.firstBreak ++ g.laterBreaks
  else g.blanks.reverse

/-- Reads on through blanks and breaks. A tab that stands left of the column `margin`, at the
    beginning of a line, is refused. -/
def read? (margin : Nat) : Nat → Gap → Cursor → Option (Gap × Cursor)
  | 0, g, k => some (g, k)
  | room + 1, g, k =>
    if k.atGap 0 then
      if g.isBroken && decide (k.column < margin) && k.isAt '\t' then none
      else if g.isBroken then read? margin room g (k.skip 1)
      else read? margin room { g with blanks := k.rest.take 1 ++ g.blanks } (k.skip 1)
    else if k.atBreak 0 then
      if g.isBroken then
        read? margin room { g with laterBreaks := g.laterBreaks ++ k.breakText } k.skipBreak
      else read? margin room { g with firstBreak := k.breakText, isBroken := true } k.skipBreak
    else some (g, k)

end Gap

/-! ## Plain scalars -/

/-- Whether a plain scalar ends before the next character, by an indicator. -/
def endsPlain (inFlow : Bool) (k : Cursor) : Bool :=
  (k.isAt ':' && k.atBlank 1) || (inFlow && (k.peek 0).any [',', '[', ']', '{', '}'].contains)

/-- Whether a colon stands where a flow collection allows none. -/
def hasStrayColon (inFlow : Bool) (k : Cursor) : Bool :=
  inFlow && k.isAt ':' && (k.peek 1).any [',', '?', '[', ']', '{', '}'].contains

/-- Reads the characters of a plain scalar up to a blank or an indicator, in reverse order. -/
def plainWord? (inFlow : Bool) : Nat → List Char → Cursor → Option (List Char × Cursor)
  | 0, word, k => some (word, k)
  | room + 1, word, k =>
    if k.atBlank 0 then some (word, k)
    else if hasStrayColon inFlow k then none
    else if endsPlain inFlow k then some (word, k)
    else plainWord? inFlow room (k.rest.take 1 ++ word) (k.skip 1)

/-- Reads a plain scalar, in reverse order, and whether it ends behind a line break. Lines that go
    on have to be indented to the column `margin`, unless in a flow collection. -/
def plainScalar? (inFlow : Bool) (margin : Nat) :
    Nat → List Char → Gap → Cursor → Option (List Char × Bool × Cursor)
  | 0, text, gap, k => some (text, gap.isBroken, k)
  | room + 1, text, gap, k =>
    if k.atDocumentMarker || k.isAt '#' then some (text, gap.isBroken, k)
    else
      match plainWord? inFlow k.rest.length [] k with
      | none => none
      | some ([], k') => some (text, gap.isBroken, k')
      | some (word, k') =>
        let text := word ++ gap.text.reverse ++ text
        if k'.atGap 0 || k'.atBreak 0 then
          match Gap.read? margin k'.rest.length .empty k' with
          | none => none
          | some (gap, k') =>
            if !inFlow && decide (k'.column < margin) then some (text, gap.isBroken, k')
            else plainScalar? inFlow margin room text gap k'
        else some (text, false, k')

/-! ## Quoted scalars -/

/-- What an escape letter in double quotes stands for: a character, or a code of so many digits. -/
def escape? (c : Char) : Option (Char ⊕ Nat) :=
  let letters : List (Char × Char) :=
    [('0', '\x00'), ('a', '\x07'), ('b', '\x08'), ('t', '\t'), ('\t', '\t'), ('n', '\n'),
      ('v', '\x0b'), ('f', '\x0c'), ('r', '\r'), ('e', '\x1b'), (' ', ' '), ('"', '"'),
      ('/', '/'), ('\\', '\\'), ('N', '\u0085'), ('_', '\u00a0'), ('L', '\u2028'),
      ('P', '\u2029')]
  match letters.lookup c with
  | some image => some (.inl image)
  | none =>
    if c = 'x' then some (.inr 2)
    else if c = 'u' then some (.inr 4)
    else if c = 'U' then some (.inr 8)
    else none

/-- The character with a code, unless there is none. -/
def charOfCode? (code : Nat) : Option Char :=
  if (0xD800 ≤ code && code ≤ 0xDFFF) || 0x10FFFF < code then none else some (Char.ofNat code)

/-- Reads the escape behind a backslash. -/
def escaped? (k : Cursor) : Option (Char × Cursor) :=
  match (k.peek 1).bind escape? with
  | none => none
  | some (.inl c) => some (c, k.skip 2)
  | some (.inr width) =>
    let digits := (k.rest.drop 2).take width
    if digits.length = width then
      ((Text.hexNumber? digits).bind charOfCode?).map fun c => (c, k.skip (2 + width))
    else none

/-- Reads the characters of a quoted scalar up to a blank or the closing quote, in reverse order,
    and whether an escaped line break ended them. -/
def quotedWord? (single : Bool) : Nat → List Char → Cursor → Option (List Char × Bool × Cursor)
  | 0, word, k => some (word, false, k)
  | room + 1, word, k =>
    if k.atBlank 0 then some (word, false, k)
    else if single && k.isAt '\'' && k.peek 1 == some '\'' then
      quotedWord? single room ('\'' :: word) (k.skip 2)
    else if k.isAt (if single then '\'' else '"') then some (word, false, k)
    else if !single && k.isAt '\\' then
      if k.atBreak 1 then some (word, true, (k.skip 1).skipBreak)
      else
        match escaped? k with
        | none => none
        | some (c, k) => quotedWord? single room (c :: word) k
    else quotedWord? single room (k.rest.take 1 ++ word) (k.skip 1)

/-- Reads a quoted scalar behind its opening quote, in reverse order. -/
def quotedScalar? (single : Bool) : Nat → List Char → Cursor → Option (List Char × Cursor)
  | 0, _, _ => none
  | room + 1, text, k =>
    if k.atDocumentMarker || k.atEnd then none
    else
      match quotedWord? single k.rest.length [] k with
      | none => none
      | some (word, isBroken, k) =>
        let text := word ++ text
        if !isBroken && k.isAt (if single then '\'' else '"') then some (text, k.skip 1)
        else
          match Gap.read? 0 k.rest.length (if isBroken then .escapedBreak else .empty) k with
          | none => none
          | some (gap, k) => quotedScalar? single room (gap.text.reverse ++ text) k

/-! ## Block scalars -/

/-- What becomes of the line breaks at the end of a block. -/
inductive Chomp
  | strip
  | clip
  | keep
  deriving DecidableEq

/-- The chomping that an indicator asks for. -/
def chomp? (k : Cursor) : Option Chomp :=
  if k.isAt '+' then some .keep else if k.isAt '-' then some .strip else none

/-- The indentation that an indicator asks for. -/
def increment? (k : Cursor) : Option Nat :=
  match k.peek 0 with
  | some c => if c.isDigit then some (c.toNat - '0'.toNat) else none
  | none => none

/-- Reads the indicators of a block, in either order. An indentation of nothing is refused. -/
def blockHeader? (k : Cursor) : Option (Chomp × Nat × Cursor) :=
  let checked (chomp : Chomp) (increment : Option Nat) (k : Cursor) :=
    if increment = some 0 then none else some (chomp, increment.getD 0, k)
  match chomp? k with
  | some chomp =>
    let k := k.skip 1
    match increment? k with
    | some n => checked chomp (some n) (k.skip 1)
    | none => checked chomp none k
  | none =>
    match increment? k with
    | some n =>
      let k := k.skip 1
      match chomp? k with
      | some chomp => checked chomp (some n) (k.skip 1)
      | none => checked .clip (some n) k
    | none => checked .clip none k

/-- Reads indentation and empty lines: the breaks of the lines, the widest indentation and where the
    next line with something in it goes on. An `indent` of zero takes any indentation. -/
def blockBreaks? (indent : Nat) : Nat → List Char → Nat → Cursor → Option (List Char × Nat × Cursor)
  | 0, breaks, widest, k => some (breaks, widest, k)
  | room + 1, breaks, widest, k =>
    let spaces := (k.rest.takeWhile (· == ' ')).length
    let k := k.skip (if indent = 0 then spaces else min spaces (indent - k.column))
    let widest := max widest k.column
    if (indent == 0 || decide (k.column < indent)) && k.isAt '\t' then none
    else if k.atBreak 0 then blockBreaks? indent room (breaks ++ k.breakText) widest k.skipBreak
    else some (breaks, widest, k)

/-- A block that is being read. -/
structure Block where
  /-- The text, in reverse order. -/
  text : List Char
  /-- The break of the last line. -/
  lastBreak : List Char
  /-- The breaks of the empty lines after it. -/
  emptyBreaks : List Char
  /-- Whether the last line begins with a blank. -/
  wasBlank : Bool

/-- The text between two lines of a block. -/
def Block.joint (literal : Bool) (b : Block) (isBlank : Bool) : List Char :=
  if !literal && b.lastBreak == ['\n'] && !b.wasBlank && !isBlank then
    if b.emptyBreaks.isEmpty then [' '] else b.emptyBreaks
  else b.lastBreak ++ b.emptyBreaks

/-- Reads the lines of a block. -/
def blockLines? (literal : Bool) (indent : Nat) : Nat → Block → Cursor → Option (Block × Cursor)
  | 0, b, k => some (b, k)
  | room + 1, b, k =>
    if k.column == indent && !k.atEnd then
      let isBlank := k.atGap 0
      let line := k.rest.takeWhile (!isBreak ·)
      let k := k.skip line.length
      let lastBreak := k.breakText
      let k' := k.endLine
      match blockBreaks? indent k'.rest.length.succ [] 0 k' with
      | none => none
      | some (emptyBreaks, _, k') =>
        blockLines? literal indent room
          ⟨line.reverse ++ (b.joint literal isBlank).reverse ++ b.text, lastBreak, emptyBreaks,
            isBlank⟩ k'
    else some (b, k)

/-- Reads a block behind its first indicator. `parent` is the indentation around it. -/
def blockScalar? (literal : Bool) (parent : Int) (k : Cursor) : Option (List Char × Cursor) :=
  match blockHeader? k with
  | none => none
  | some (chomp, increment, k) =>
    let k := k.skipToComment
    if !k.atBreakOrEnd then none
    else
      let k := k.endLine
      let given := if increment = 0 then 0 else (max parent 0).toNat + increment
      match blockBreaks? given k.rest.length.succ [] 0 k with
      | none => none
      | some (breaks, widest, k) =>
        let indent := if given = 0 then max (max widest (parent + 1).toNat) 1 else given
        match blockLines? literal indent k.rest.length.succ ⟨[], [], breaks, false⟩ k with
        | none => none
        | some (b, k) =>
          let tail :=
            match chomp with
            | .strip => []
            | .clip => b.lastBreak
            | .keep => b.lastBreak ++ b.emptyBreaks
          some (b.text.reverse ++ tail, k)

end Scaffold.Yaml
