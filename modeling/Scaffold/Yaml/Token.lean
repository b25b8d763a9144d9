import Scaffold.Text.Hex
import Scaffold.Yaml.Cursor

set_option autoImplicit false

/-! # YAML tokens

The tokens of a YAML stream, and the reading of those that are more than an indicator or a scalar:
directives, anchors and tags. Each reader starts at the token's first character. -/

namespace Scaffold.Yaml

/-- A token of a YAML stream. -/
inductive Token
  | versionDirective (major minor : Nat)
  | tagDirective (handle expansion : List Char)
  | documentStart
  | documentEnd
  | blockSequenceStart
  | blockMappingStart
  | blockEnd
  | flowSequenceStart
  | flowSequenceEnd
  | flowMappingStart
  | flowMappingEnd
  | blockEntry
  | flowEntry
  | key
  | value
  | alias (name : List Char)
  | anchor (name : List Char)
  | tag (handle suffix : List Char)
  | scalar (text : List Char) (isPlain : Bool)
  | streamEnd
  deriving DecidableEq

/-! ## Anchors and aliases -/

/-- Reads the name behind an indicator. Only some characters may follow it. -/
def name? (k : Cursor) : Option (List Char × Cursor) :=
  let k := k.skip 1
  let name := k.rest.takeWhile isNameChar
  let k := k.skip name.length
  if name.isEmpty then none
  else if k.atBlank 0 || (k.peek 0).any ['?', ':', ',', ']', '}', '%', '@', '`'].contains then
    some (name, k)
  else none

/-! ## Tags -/

/-- How many bytes the first byte of a character says that the character has. -/
def byteWidth (byte : Nat) : Nat :=
  if byte < 0x80 then 1
  else if byte / 0x20 = 6 then 2
  else if byte / 0x10 = 14 then 3
  else if byte / 0x08 = 30 then 4
  else 0

/-- Reads a byte written by a percent sign and two hexadecimal digits. -/
def uriByte? (k : Cursor) : Option (Nat × Cursor) :=
  match k.rest with
  | '%' :: high :: low :: _ =>
    (Text.hexNumber? [high, low]).map fun byte => (byte, k.skip 3)
  | _ => none

/-- Reads `owed` bytes that continue a character. -/
def uriTail? : Nat → List Char → Cursor → Option (List Char × Cursor)
  | 0, bytes, k => some (bytes, k)
  | owed + 1, bytes, k =>
    match uriByte? k with
    | none => none
    | some (byte, k) =>
      if byte / 0x40 = 2 then uriTail? owed (bytes ++ [Char.ofNat byte]) k else none

/-- Reads an escaped character, byte by byte. -/
def uriEscape? (k : Cursor) : Option (List Char × Cursor) :=
  match uriByte? k with
  | none => none
  | some (byte, k) =>
    match byteWidth byte with
    | 0 => none
    | width + 1 => uriTail? width [Char.ofNat byte] k

/-- Whether a character may stand in the text of a tag. Commas and square brackets may only do so
    where they cannot be indicators. -/
def isUriChar (isVerbatim : Bool) (c : Char) : Bool :=
  let marks : List Char :=
    [';', '/', '?', ':', '@', '&', '=', '+', '$', '.', '%', '!', '~', '*', '\'', '(', ')']
  isNameChar c || marks.contains c || (isVerbatim && [',', '[', ']'].contains c)

/-- Reads the characters of the text of a tag. -/
def uriChars? (isVerbatim : Bool) : Nat → List Char → Cursor → Option (List Char × Cursor)
  | 0, text, k => some (text, k)
  | room + 1, text, k =>
    match k.peek 0 with
    | none => some (text, k)
    | some c =>
      if !isUriChar isVerbatim c then some (text, k)
      else if c = '%' then
        match uriEscape? k with
        | none => none
        | some (bytes, k) => uriChars? isVerbatim room (text ++ bytes) k
      else uriChars? isVerbatim room (text ++ [c]) (k.skip 1)

/-- Reads the text of a tag, of which `head` has been read; its exclamation mark does not belong to
    the text. There has to be something. -/
def uri? (isVerbatim : Bool) (head : List Char) (k : Cursor) : Option (List Char × Cursor) :=
  match uriChars? isVerbatim k.rest.length [] k with
  | none => none
  | some (text, k) => if head.isEmpty && text.isEmpty then none else some (head.drop 1 ++ text, k)

/-- Reads an exclamation mark, a name and perhaps another exclamation mark. -/
def handle? (k : Cursor) : Option (List Char × Cursor) :=
  if k.isAt '!' then
    let k := k.skip 1
    let name := k.rest.takeWhile isNameChar
    let k := k.skip name.length
    if k.isAt '!' then some ('!' :: name ++ ['!'], k.skip 1) else some ('!' :: name, k)
  else none

/-- Whether what was read as a handle is one: it ends in a second exclamation mark. -/
def isHandle (handle : List Char) : Bool :=
  decide (2 ≤ handle.length) && handle.getLast? == some '!'

/-- Reads the handle and the suffix of a tag. A verbatim tag and the tag of a single exclamation
    mark have an empty handle. -/
def tagParts? (k : Cursor) : Option (List Char × List Char × Cursor) :=
  if k.peek 1 == some '<' then
    match uri? true [] (k.skip 2) with
    | none => none
    | some (suffix, k) => if k.isAt '>' then some ([], suffix, k.skip 1) else none
  else
    match handle? k with
    | none => none
    | some (handle, k) =>
      if isHandle handle then
        (uri? false [] k).map fun (suffix, k) => (handle, suffix, k)
      else
        (uri? false handle k).map fun (suffix, k) =>
          if suffix.isEmpty then ([], ['!'], k) else (['!'], suffix, k)

/-- Reads a tag. A blank has to follow it, or a comma in a flow collection. -/
def tag? (inFlow : Bool) (k : Cursor) : Option (Token × Cursor) :=
  match tagParts? k with
  | none => none
  | some (handle, suffix, k) =>
    if k.atBlank 0 || (inFlow && k.isAt ',') then some (.tag handle suffix, k) else none

/-! ## Directives -/

/-- Reads a number of at most nine digits. -/
def versionNumber? (k : Cursor) : Option (Nat × Cursor) :=
  let digits := k.rest.takeWhile Char.isDigit
  if digits.isEmpty || 9 < digits.length then none
  else some (digits.foldl (fun n c => n * 10 + (c.toNat - '0'.toNat)) 0, k.skip digits.length)

/-- Reads the version behind the name of its directive. -/
def version? (k : Cursor) : Option (Token × Cursor) :=
  match versionNumber? (k.skipWhile isGap) with
  | none => none
  | some (major, k) =>
    if k.isAt '.' then
      (versionNumber? (k.skip 1)).map fun (minor, k) => (.versionDirective major minor, k)
    else none

/-- Reads the handle and its expansion behind the name of their directive. -/
def tagExpansion? (k : Cursor) : Option (Token × Cursor) :=
  match handle? (k.skipWhile isGap) with
  | none => none
  | some (handle, k) =>
    if (isHandle handle || handle == ['!']) && k.atGap 0 then
      match uri? true [] (k.skipWhile isGap) with
      | none => none
      | some (expansion, k) =>
        if k.atBlank 0 then some (.tagDirective handle expansion, k) else none
    else none

/-- Reads a directive and the rest of its line. -/
def directive? (k : Cursor) : Option (Token × Cursor) :=
  let k := k.skip 1
  let name := k.rest.takeWhile isNameChar
  let k := k.skip name.length
  if !k.atBlank 0 then none
  else
    let directive :=
      if name = ['Y', 'A', 'M', 'L'] then version? k
      else if name = ['T', 'A', 'G'] then tagExpansion? k
      else none
    match directive with
    | none => none
    | some (token, k) =>
      let k := k.skipToComment
      if k.atBreakOrEnd then some (token, k.endLine) else none

end Scaffold.Yaml
