import Scaffold.Text.Pieces

set_option autoImplicit false

/-! # Ranked texts

Ranked texts are tried one after the other, longer ones first, so that the longest one that a text
begins with is found. The length is that in bytes; texts of one length keep the order in which they
were added. -/

namespace Scaffold.Ranked

/-- The texts with `t` put before the first one that is shorter. -/
def place (t : String) : List String → List String
  | [] => [t]
  | other :: rest =>
    if other.utf8ByteSize < t.utf8ByteSize then t :: other :: rest else other :: place t rest

/-- The texts with `t` added, unless it is there already. -/
def add (texts : List String) (t : String) : List String :=
  if texts.contains t then texts else place t texts

/-- The given texts, ranked. Empty ones are left out. -/
def ofList (texts : List String) : List String :=
  (texts.filter (· != "")).foldl add []

/-- The first of the texts that `text` begins with, and what is left of `text` behind it. -/
def dropFirst? (texts : List String) (text : List Char) : Option (String × List Char) :=
  texts.findSome? fun t => (Text.dropPrefix? t.toList text).map (t, ·)

end Scaffold.Ranked
