set_option autoImplicit false

/-! # Identifiers of a project

Four parts of a project carry an identifier that is made up when the project is created: a random
GUID, written in upper case with hyphens. Here a GUID is made of sixteen bytes, so that where the
bytes come from is left to the caller. -/

namespace Scaffold

namespace Guid

/-- The upper case hexadecimal digit of a number below sixteen. -/
def digit (n : Nat) : Char :=
  if n < 10 then Char.ofNat ('0'.toNat + n) else Char.ofNat ('A'.toNat + (n - 10))

/-- The two digits of a byte. -/
def byteDigits (b : UInt8) : List Char :=
  [digit (b.toNat / 16), digit (b.toNat % 16)]

/-- Sixteen bytes with the version and the variant of a random GUID in their places. -/
def stamp (bytes : List UInt8) : List UInt8 :=
  bytes.zipIdx.map fun (b, i) =>
    if i = 6 then (b &&& 0x0F) ||| 0x40 else if i = 8 then (b &&& 0x3F) ||| 0x80 else b

/-- The random GUID made of sixteen bytes. -/
def ofBytes (bytes : List UInt8) : String :=
  String.ofList ((stamp bytes).zipIdx.flatMap fun (b, i) =>
    if [4, 6, 8, 10].contains i then '-' :: byteDigits b else byteDigits b)

/-- Whether the character is an upper case hexadecimal digit. -/
def isDigit (c : Char) : Bool :=
  c.isDigit || ('A' ≤ c && c ≤ 'F')

/-- Whether a text is a random GUID in upper case with hyphens. -/
def isRandom (s : String) : Bool :=
  let cs := s.toList
  cs.length == 36 &&
    cs.zipIdx.all fun (c, i) =>
      if [8, 13, 18, 23].contains i then c == '-'
      else if i = 14 then c == '4'
      else if i = 19 then ['8', '9', 'A', 'B'].contains c
      else isDigit c

end Guid

/-- The identifiers of a project. -/
structure ProjectIds where
  solution : String
  gameProject : String
  appAndroid : String
  appWinPC : String
  deriving DecidableEq, Repr

namespace ProjectIds

/-- The identifiers made of sixty-four bytes, sixteen for each. -/
def ofBytes (bytes : List UInt8) : ProjectIds where
  solution := Guid.ofBytes (bytes.take 16)
  gameProject := Guid.ofBytes ((bytes.drop 16).take 16)
  appAndroid := Guid.ofBytes ((bytes.drop 32).take 16)
  appWinPC := Guid.ofBytes ((bytes.drop 48).take 16)

/-- The variables that hold the identifiers. -/
def assignments (ids : ProjectIds) : List (String × String) :=
  [("GUID-Solution", ids.solution), ("GUID-GameProject", ids.gameProject),
    ("GUID-AppAndroid", ids.appAndroid), ("GUID-AppWinPC", ids.appWinPC)]

end ProjectIds

end Scaffold
