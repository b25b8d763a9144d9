import Scaffold.Keyed

set_option autoImplicit false

/-! # Nodes of a file system

A node is a file or a directory, and a directory holds nodes under names. A node is only ever looked
at through `at?`, which follows a list of names, and through the sorted names of a directory; where
a name were given twice, only its first node would count. `at?_put_self` and `at?_put_of_disjoint`
say what a change does. -/

namespace Scaffold

/-- A file with its bytes, or a directory with what is in it. -/
inductive Node where
  | file (bytes : ByteArray)
  | directory (children : List (String × Node))

/-- What a place of a file system holds, as far as it can be seen from there. -/
inductive Entry
  | file (bytes : ByteArray)
  | directory

/-- Files are compared by what they hold. -/
instance : DecidableEq Entry
  | .file a, .file b =>
    if h : a.data = b.data then isTrue (congrArg Entry.file (ByteArray.ext h))
    else isFalse fun e => h (congrArg ByteArray.data (Entry.file.inj e))
  | .directory, .directory => isTrue rfl
  | .file _, .directory => isFalse Entry.noConfusion
  | .directory, .file _ => isFalse Entry.noConfusion

namespace Node

/-- What can be seen of a node. -/
def entry : Node → Entry
  | .file bytes => .file bytes
  | .directory _ => .directory

/-- What is in a node. -/
def children : Node → List (String × Node)
  | .file _ => []
  | .directory children => children

/-- The node at the end of a list of names. -/
def at? (n : Node) : List String → Option Node
  | [] => some n
  | name :: names =>
    match Keyed.find name n.children with
    | none => none
    | some child => child.at? names

/-- The node with `new` put at the end of a list of names. Missing directories are added, but a file
    on the way stays as it is. -/
def put (new : Node) : List String → Node → Node
  | [], _ => new
  | _ :: _, .file bytes => .file bytes
  | name :: names, .directory children =>
    .directory (Keyed.put name (fun child => put new names (child.getD (.directory []))) children)

/-- What was put is there, unless a file stands in the way. -/
theorem at?_put_self (new : Node) (place : List String) (n : Node)
    (h : ∀ way, way <+: place → way ≠ place → ∀ bytes, n.at? way ≠ some (.file bytes)) :
    (put new place n).at? place = some new := by
  induction place generalizing n with
  | nil => rfl
  | cons name names ih =>
    cases n with
    | file bytes => exact absurd rfl (h [] List.nil_prefix (List.cons_ne_nil _ _).symm bytes)
    | directory children =>
      simp only [put, at?, Node.children, Keyed.find_put, if_true]
      refine ih _ fun way hway hne bytes hfile => ?_
      refine h (name :: way) ((List.prefix_cons_inj name).2 hway) (by simpa using hne) bytes ?_
      cases hc : Keyed.find name children with
      | some child => simpa [at?, Node.children, hc] using hfile
      | none => cases way <;> simp [at?, Node.children, hc, Keyed.find] at hfile

/-- Places that are neither above nor below the changed one keep what they hold. -/
theorem at?_put_of_disjoint (new : Node) {place other : List String} (n : Node)
    (h : ¬ place <+: other) (h' : ¬ other <+: place) :
    (put new place n).at? other = n.at? other := by
  induction place generalizing other n with
  | nil => exact absurd List.nil_prefix h
  | cons name names ih =>
    cases other with
    | nil => exact absurd List.nil_prefix h'
    | cons otherName otherNames =>
      cases n with
      | file bytes => rfl
      | directory children =>
        simp only [put, at?, Node.children, Keyed.find_put]
        by_cases hname : otherName = name
        · subst hname
          rw [List.prefix_cons_inj] at h h'
          simp only [if_true]
          rw [ih _ h h']
          cases hc : Keyed.find otherName children with
          | some child => rfl
          | none =>
            cases otherNames with
            | nil => exact absurd List.nil_prefix h'
            | cons _ _ => rfl
        · simp [hname]

/-- A sorted list of names with one more name, unless it is there already. -/
def insertName (name : String) : List String → List String
  | [] => [name]
  | other :: names =>
    if name < other then name :: other :: names
    else if name = other then other :: names
    else other :: insertName name names

/-- The names in a node, each once, sorted by their characters. -/
def names (n : Node) : List String :=
  n.children.foldr (fun child names => insertName child.1 names) []

end Node

end Scaffold
