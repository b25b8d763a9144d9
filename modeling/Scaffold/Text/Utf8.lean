set_option autoImplicit false

/-! # Decoding text

Files hold bytes; a text file holds the UTF-8 bytes of its text. Decoding gives the text back, or
the place and kind of the first fault: bytes that no character begins with or continues with, or a
character that the end cuts short. -/

namespace Scaffold.Utf8

/-- The first fault of bytes that are no text. -/
inductive Fault
  /-- The `length` bytes at `index` are no character and begin none. -/
  | invalid (length index : Nat)
  /-- The bytes end inside the character at `index`. -/
  | incomplete (index : Nat)
  deriving DecidableEq, Repr

/-- The closed ranges of the bytes that follow the first byte `b` of a character, or nothing if no
    character begins with it. -/
def followers (b : UInt8) : Option (List (UInt8 × UInt8)) :=
  let tail := (0x80, 0xBF)
  if b ≤ 0x7F then some []
  else if b < 0xC2 then none
  else if b ≤ 0xDF then some [tail]
  else if b = 0xE0 then some [(0xA0, 0xBF), tail]
  else if b = 0xED then some [(0x80, 0x9F), tail]
  else if b ≤ 0xEF then some [tail, tail]
  else if b = 0xF0 then some [(0x90, 0xBF), tail, tail]
  else if b ≤ 0xF3 then some [tail, tail, tail]
  else if b = 0xF4 then some [(0x80, 0x8F), tail, tail]
  else none

/-- The first fault of the bytes behind `seen` bytes of the character at `index`, of which the bytes
    in `owed` are missing. -/
def faultAfter (index seen : Nat) : List (UInt8 × UInt8) → List UInt8 → Option Fault
  | [], [] => none
  | _ :: _, [] => some (.incomplete index)
  | [], b :: bytes =>
    match followers b with
    | none => some (.invalid 1 (index + seen))
    | some owed => faultAfter (index + seen) 1 owed bytes
  | (low, high) :: owed, b :: bytes =>
    if low ≤ b && b ≤ high then faultAfter index (seen + 1) owed bytes
    else some (.invalid seen index)

/-- The first fault of the bytes. -/
def fault? (bytes : ByteArray) : Option Fault :=
  faultAfter 0 0 [] bytes.toList

/-- The text whose UTF-8 bytes these are, or their first fault. -/
def decode (bytes : ByteArray) : Except Fault String :=
  match String.fromUTF8? bytes with
  | some text => .ok text
  | none => .error ((fault? bytes).getD (.incomplete 0))

/-- The bytes of the byte order mark. -/
def mark : ByteArray :=
  ⟨#[0xEF, 0xBB, 0xBF]⟩

/-- The bytes without one byte order mark at their beginning. -/
def dropMark (bytes : ByteArray) : ByteArray :=
  if (bytes.extract 0 3).data = mark.data then bytes.extract 3 bytes.size else bytes

/-- How a fault is shown. -/
def Fault.message : Fault → String
  | .invalid length index =>
    "invalid utf-8 sequence of " ++ toString length ++ " bytes from index " ++ toString index
  | .incomplete index => "incomplete utf-8 byte sequence from index " ++ toString index

end Scaffold.Utf8
