import Mathlib.Data.List.Infix
import Mathlib.Data.List.Sort
import Mathlib.Data.String.Basic
import Scaffold.FileSystem.Basic

set_option autoImplicit false

/-! # The view of a file system

What the places of a file system hold, after a change and before it. Everything above a place that
holds something is a directory, so a change at one place shows at that place alone as long as it
puts a file or an empty directory into a directory (`lookup_put`). The listing of a directory says
no more than what is a file there and what a directory (`list_congr`), so file systems that look
alike are alike for everything that runs on them. -/

namespace Scaffold

namespace Node

theorem at?_append (n : Node) (names rest : List String) :
    n.at? (names ++ rest) = (n.at? names).bind (·.at? rest) := by
  induction names generalizing n with
  | nil => rfl
  | cons name names ih =>
    simp only [List.cons_append, at?]
    cases Keyed.find name n.children with
    | none => rfl
    | some child => exact ih child

theorem at?_of_children_eq_nil {n : Node} (h : n.children = []) (name : String)
    (names : List String) : n.at? (name :: names) = none := by
  simp only [at?, h, Keyed.find]

/-- Above the place of a change there are directories still. -/
theorem entry_at?_put_above (new : Node) {names rest : List String} (hrest : rest ≠ [])
    (n : Node) (h : ∀ way, way <+: names → (n.at? way).map entry = some .directory) :
    ((put new (names ++ rest) n).at? names).map entry = some .directory := by
  induction names generalizing n with
  | nil =>
    obtain ⟨name, rest, rfl⟩ := List.exists_cons_of_ne_nil hrest
    cases n with
    | file bytes => exact absurd (h [] List.nil_prefix) (by simp [at?, entry])
    | directory children => rfl
  | cons name names ih =>
    cases n with
    | file bytes => exact absurd (h [] List.nil_prefix) (by simp [at?, entry])
    | directory children =>
      simp only [List.cons_append, put, at?, Node.children, Keyed.find_put, if_true]
      refine ih _ fun way hway => ?_
      have hdir := h (name :: way) ((List.prefix_cons_inj name).2 hway)
      simp only [at?, Node.children] at hdir
      cases hc : Keyed.find name children with
      | none => simp [hc] at hdir
      | some child => simpa [hc] using hdir

/-! ## Names -/

theorem mem_insertName (name other : String) (names : List String) :
    other ∈ insertName name names ↔ other = name ∨ other ∈ names := by
  induction names with
  | nil => simp [insertName]
  | cons first names ih =>
    unfold insertName
    split
    · exact List.mem_cons
    · split
      · next heq => simp [heq]
      · rw [List.mem_cons, ih, List.mem_cons]
        exact or_left_comm

theorem pairwise_insertName (name : String) {names : List String}
    (h : names.Pairwise (· < ·)) : (insertName name names).Pairwise (· < ·) := by
  induction names with
  | nil => simp [insertName]
  | cons first names ih =>
    rw [List.pairwise_cons] at h
    unfold insertName
    split
    · next hlt =>
      rw [List.pairwise_cons, List.pairwise_cons]
      refine ⟨fun other hother => ?_, h⟩
      rcases List.mem_cons.1 hother with rfl | hother
      · exact hlt
      · exact lt_trans hlt (h.1 other hother)
    · next hlt =>
      split
      · exact List.pairwise_cons.2 h
      · next hne =>
        rw [List.pairwise_cons]
        refine ⟨fun other hother => ?_, ih h.2⟩
        rcases (mem_insertName name other names).1 hother with rfl | hother
        · exact lt_of_le_of_ne (not_lt.1 hlt) (Ne.symm hne)
        · exact h.1 other hother

theorem mem_names (n : Node) (name : String) : name ∈ n.names ↔ n.at? [name] ≠ none := by
  have hfind : ∀ children : List (String × Node),
      name ∈ children.foldr (fun child names => insertName child.1 names) [] ↔
        Keyed.find name children ≠ none := by
    intro children
    rw [Ne, Keyed.find_eq_none_iff, not_not]
    induction children with
    | nil => simp
    | cons child children ih =>
      rw [List.foldr_cons, mem_insertName, ih, List.map_cons, List.mem_cons]
  unfold names
  rw [hfind, at?]
  cases Keyed.find name n.children <;> simp [at?]

theorem pairwise_names (n : Node) : n.names.Pairwise (· < ·) := by
  unfold names
  induction n.children with
  | nil => exact List.Pairwise.nil
  | cons child children ih => exact pairwise_insertName child.1 ih

/-- The names in a directory are known from what can be looked up there. -/
theorem names_eq {n n' : Node} (h : ∀ name, n.at? [name] = none ↔ n'.at? [name] = none) :
    n.names = n'.names := by
  have hperm : n.names.Perm n'.names := by
    rw [List.perm_ext_iff_of_nodup (pairwise_names n).nodup (pairwise_names n').nodup]
    intro name
    rw [mem_names, mem_names, Ne, Ne, h name]
  exact hperm.eq_of_pairwise' (pairwise_names n) (pairwise_names n')

end Node

/-- What something is, whatever it holds. -/
inductive Kind
  | file
  | directory
  deriving DecidableEq, Repr

/-- What an entry is. -/
def Entry.kind : Entry → Kind
  | .file _ => .file
  | .directory => .directory

namespace FileSystem

variable (fs : FileSystem)

/-! ## Looking up -/

theorem lookup_nil : fs.lookup [] = some .directory := rfl

theorem node?_append (place rest : List String) :
    fs.node? (place ++ rest) = (fs.node? place).bind (·.at? rest) :=
  Node.at?_append _ place rest

/-- What stands above something is a directory. -/
theorem lookup_of_append {fs : FileSystem} {place rest : List String} (hrest : rest ≠ [])
    (h : fs.lookup (place ++ rest) ≠ none) : fs.lookup place = some .directory := by
  obtain ⟨name, rest, rfl⟩ := List.exists_cons_of_ne_nil hrest
  unfold lookup at h ⊢
  rw [node?_append] at h
  cases hnode : fs.node? place with
  | none => simp [hnode] at h
  | some n =>
    cases n with
    | file bytes => simp [hnode, Node.at?, Node.children, Keyed.find] at h
    | directory children => rfl

theorem lookup_above {fs : FileSystem} {place below : List String} (hon : place <+: below)
    (h : fs.lookup below = some .directory) : fs.lookup place = some .directory := by
  obtain ⟨rest, rfl⟩ := hon
  by_cases hrest : rest = []
  · rwa [hrest, List.append_nil] at h
  · exact lookup_of_append hrest (by simp [h])

theorem lookup_ne_none_above {fs : FileSystem} {place below : List String} (hon : place <+: below)
    (h : fs.lookup below ≠ none) : fs.lookup place ≠ none := by
  obtain ⟨rest, rfl⟩ := hon
  by_cases hrest : rest = []
  · rwa [hrest, List.append_nil] at h
  · simp [lookup_of_append hrest h]

/-- There is nothing below a file or below nothing. -/
theorem lookup_append_eq_none {fs : FileSystem} {place rest : List String} (hrest : rest ≠ [])
    (h : fs.lookup place ≠ some .directory) : fs.lookup (place ++ rest) = none := by
  by_contra hne
  exact h (lookup_of_append hrest hne)

theorem lookup_dropLast {fs : FileSystem} {place : List String}
    (h : fs.lookup place = some .directory) : fs.lookup place.dropLast = some .directory :=
  lookup_above (List.dropLast_prefix place) h

/-! ## Kinds -/

/-- Whether there is something at a place, and what it is. -/
def kind? (place : List String) : Option Kind :=
  (fs.lookup place).map Entry.kind

theorem kind?_congr {fs fs' : FileSystem} {place : List String}
    (h : fs'.lookup place = fs.lookup place) : fs'.kind? place = fs.kind? place := by
  rw [kind?, h, kind?]

theorem kind?_eq_none_iff {fs : FileSystem} {place : List String} :
    fs.kind? place = none ↔ fs.lookup place = none :=
  Option.map_eq_none_iff

theorem kind?_eq_directory_iff {fs : FileSystem} {place : List String} :
    fs.kind? place = some .directory ↔ fs.lookup place = some .directory := by
  unfold kind?
  rcases fs.lookup place with _ | _ | _ <;> simp [Entry.kind]

theorem kind?_eq_file_iff {fs : FileSystem} {place : List String} :
    fs.kind? place = some .file ↔ ∃ bytes, fs.lookup place = some (.file bytes) := by
  unfold kind?
  rcases fs.lookup place with _ | _ | _ <;> simp [Entry.kind]

theorem lookup_beq_directory (place : List String) :
    (fs.lookup place == some .directory) = (fs.kind? place == some .directory) := by
  rw [Bool.eq_iff_iff, beq_iff_eq, beq_iff_eq, kind?_eq_directory_iff]

/-! ## One change -/

theorem node?_put {place : List String} (hplace : place ≠ []) (new : Node) (other : List String) :
    (fs.put place new).node? other = (Node.put new place (.directory fs.root)).at? other := by
  obtain ⟨name, names, rfl⟩ := List.exists_cons_of_ne_nil hplace
  rfl

/-- A file or an empty directory that is put into a directory, at a free name or in the place of a
    file, shows at its place and nowhere else. -/
theorem lookup_put {directory : List String} {name : String} {new : Node}
    (hdirectory : fs.lookup directory = some .directory)
    (hplace : fs.lookup (directory ++ [name]) ≠ some .directory) (hnew : new.children = [])
    (other : List String) :
    (fs.put (directory ++ [name]) new).lookup other =
      if other = directory ++ [name] then some new.entry else fs.lookup other := by
  have hne : directory ++ [name] ≠ [] := by simp
  have habove : ∀ way, way <+: directory →
      ((Node.directory fs.root).at? way).map Node.entry = some .directory :=
    fun way hway => lookup_above hway hdirectory
  have hself : (fs.put (directory ++ [name]) new).node? (directory ++ [name]) = some new := by
    rw [node?_put fs hne]
    refine Node.at?_put_self new _ _ fun way hway hwayne bytes hfile => ?_
    rcases List.prefix_concat_iff.1 hway with rfl | hway
    · exact hwayne rfl
    · have hdirectory' := habove way hway
      rw [hfile] at hdirectory'
      exact absurd hdirectory' (by simp [Node.entry])
  by_cases hother : other = directory ++ [name]
  · rw [if_pos hother, hother, lookup, hself]
    rfl
  rw [if_neg hother]
  by_cases hbelow : directory ++ [name] <+: other
  · -- there was nothing below, and there is nothing in what was put
    obtain ⟨rest, rfl⟩ := hbelow
    have hrest : rest ≠ [] := by
      rintro rfl
      exact hother (List.append_nil _)
    obtain ⟨first, rest, rfl⟩ := List.exists_cons_of_ne_nil hrest
    rw [lookup_append_eq_none hrest hplace, lookup, node?_append, hself, Option.bind_some,
      Node.at?_of_children_eq_nil hnew]
    rfl
  by_cases habove' : other <+: directory ++ [name]
  · -- above there were directories, and there are still
    have hon : other <+: directory := by
      rcases List.prefix_concat_iff.1 habove' with h | h
      · exact absurd h hother
      · exact h
    rw [lookup_above hon hdirectory, lookup, node?_put fs hne]
    obtain ⟨rest, hrest⟩ := habove'
    rw [← hrest]
    refine Node.entry_at?_put_above new ?_ _ fun way hway => habove way (hway.trans hon)
    rintro rfl
    exact hother ((List.append_nil other).symm.trans hrest)
  · rw [lookup, node?_put fs hne, Node.at?_put_of_disjoint new _ hbelow habove']
    rfl

/-! ## Listing -/

theorem lookup_append_singleton {fs : FileSystem} {place : List String} {n : Node}
    (hn : fs.node? place = some n) (name : String) :
    fs.lookup (place ++ [name]) = (n.at? [name]).map Node.entry := by
  rw [lookup, node?_append, hn, Option.bind_some]

theorem lookup_append_singleton_eq_none_iff {fs : FileSystem} {place : List String} {n : Node}
    (hn : fs.node? place = some n) {name : String} :
    fs.lookup (place ++ [name]) = none ↔ n.at? [name] = none := by
  rw [lookup_append_singleton hn, Option.map_eq_none_iff]

/-- What can be listed is a directory, and the listing says what stands under each of its names. -/
theorem exists_of_list {fs : FileSystem} {path : String} {entries : List (String × Bool)}
    (h : fs.list path = .ok entries) :
    ∃ place children, fs.resolve path = .ok (.found place) ∧
      fs.node? place = some (.directory children) ∧
      entries = (Node.directory children).names.map fun name =>
        (name, fs.lookup (place ++ [name]) == some .directory) := by
  unfold list at h
  split at h
  · simp at h
  · simp at h
  · next place hplace =>
    split at h
    · simp at h
    · simp at h
    · next children hnode => exact ⟨place, children, hplace, hnode, (Except.ok.inj h).symm⟩

theorem exists_list {fs : FileSystem} {path : String} {place : List String}
    (hresolve : fs.resolve path = .ok (.found place))
    (hdirectory : fs.lookup place = some .directory) : ∃ entries, fs.list path = .ok entries := by
  obtain ⟨n, hnode, hentry⟩ := Option.map_eq_some_iff.1 hdirectory
  unfold list
  rw [hresolve]
  dsimp only
  rw [hnode]
  cases n with
  | file bytes => simp [Node.entry] at hentry
  | directory children => exact ⟨_, rfl⟩

/-- Directories that hold the same directories and files are listed alike. -/
theorem list_congr {fs fs' : FileSystem} {path : String}
    (hresolve : fs'.resolve path = fs.resolve path)
    (hkind : ∀ place, fs.resolve path = .ok (.found place) →
      ∀ rest, fs'.kind? (place ++ rest) = fs.kind? (place ++ rest)) :
    fs'.list path = fs.list path := by
  unfold list
  rw [hresolve]
  cases hpath : fs.resolve path with
  | error cause => rfl
  | ok target =>
    cases target with
    | free directory name => rfl
    | found place =>
      have hsame := hkind place hpath
      have hentry : (fs'.node? place).map (Entry.kind ∘ Node.entry) =
          (fs.node? place).map (Entry.kind ∘ Node.entry) := by
        have hplace := hsame []
        simpa only [List.append_nil, kind?, lookup, Option.map_map] using hplace
      cases hn : fs.node? place with
      | none =>
        rw [hn, Option.map_none, Option.map_eq_none_iff] at hentry
        simp only [hentry, hn]
      | some n =>
        rw [hn] at hentry
        obtain ⟨n', hn', hentry⟩ := Option.map_eq_some_iff.1 hentry
        -- a name is listed if something can be looked up under it
        have hnames : n'.names = n.names := by
          refine Node.names_eq fun name => ?_
          have hname := hsame [name]
          rw [← lookup_append_singleton_eq_none_iff hn', ← lookup_append_singleton_eq_none_iff hn,
            ← kind?_eq_none_iff, hname, kind?_eq_none_iff]
        simp only [hn', hn]
        cases n with
        | file bytes =>
          cases n' with
          | file bytes' => rfl
          | directory children => exact absurd hentry (by simp [Node.entry, Entry.kind])
        | directory children =>
          cases n' with
          | file bytes' => exact absurd hentry (by simp [Node.entry, Entry.kind])
          | directory children' =>
            simp only [hnames, lookup_beq_directory, hsame]

end FileSystem

end Scaffold
