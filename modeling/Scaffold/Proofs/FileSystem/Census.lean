import Mathlib.Data.Set.Card
import Mathlib.Data.Set.Finite.Lattice
import Scaffold.Proofs.FileSystem.Spots

set_option autoImplicit false

/-! # What a walk comes to

A walk through a directory comes to everything below it, except that it does not get past a directory
that cannot be listed, because the path text is too long by then. What it comes to is counted place
by place (`census`), and so it can be counted directory by directory: the directory itself, and then
what a walk comes to from each of the names that are listed in it (`census_of_list`). -/

namespace Scaffold

/-! ## Lists of names by their first name -/

/-- Lists of names are counted by their first name. -/
theorem ncard_eq_sum_heads {s : Set (List String)} (hs : s.Finite) {heads : List String}
    (hnodup : heads.Nodup) (hheads : ∀ name rest, name :: rest ∈ s → name ∈ heads) :
    s.ncard = (s ∩ {[]}).ncard + (heads.map fun name => {rest | name :: rest ∈ s}.ncard).sum := by
  induction heads generalizing s with
  | nil =>
    have hnil : s ∩ {[]} = s := by
      refine Set.inter_eq_left.2 fun names hnames => ?_
      cases names with
      | nil => rfl
      | cons name rest => exact absurd (hheads name rest hnames) List.not_mem_nil
    rw [hnil, List.map_nil, List.sum_nil, Nat.add_zero]
  | cons head heads ih =>
    obtain ⟨hhead, hnodup⟩ := List.nodup_cons.1 hnodup
    -- those that begin with the first name, and the others
    set first : Set (List String) := List.cons head '' {rest | head :: rest ∈ s} with hfirst
    set others : Set (List String) := {names ∈ s | names.head? ≠ some head} with hothers
    have hunion : s = first ∪ others := by
      ext names
      cases names with
      | nil => simp [hfirst, hothers]
      | cons name rest =>
        by_cases hname : name = head
        · simp [hfirst, hothers, hname]
        · simp [hfirst, hothers, hname, Ne.symm hname]
    have hdisjoint : Disjoint first others := by
      refine Set.disjoint_left.2 ?_
      rintro - ⟨rest, -, rfl⟩ ⟨-, hne⟩
      exact hne rfl
    have hfirstCard : first.ncard = {rest | head :: rest ∈ s}.ncard :=
      Set.ncard_image_of_injective _ List.cons_injective
    have hothersCard := ih (s := others) (hs.subset fun names hnames => hnames.1) hnodup
      fun name rest hmem => (List.mem_cons.1 (hheads name rest hmem.1)).resolve_left fun heq =>
        hmem.2 (by rw [heq, List.head?_cons])
    have hnil : others ∩ {[]} = s ∩ {[]} := by
      ext names
      simp only [Set.mem_inter_iff, Set.mem_singleton_iff, hothers, Set.mem_ofPred_eq]
      constructor
      · rintro ⟨⟨hmem, -⟩, hnames⟩
        exact ⟨hmem, hnames⟩
      · rintro ⟨hmem, rfl⟩
        exact ⟨⟨hmem, by simp⟩, rfl⟩
    have hrest : (heads.map fun name => {rest | name :: rest ∈ others}.ncard) =
        heads.map fun name => {rest | name :: rest ∈ s}.ncard := by
      refine List.map_congr_left fun name hname => ?_
      have hne : name ≠ head := by
        rintro rfl
        exact hhead hname
      simp [hothers, hne]
    have hcard := Set.ncard_union_eq hdisjoint (hs.subset (hunion ▸ Set.subset_union_left))
      (hs.subset (hunion ▸ Set.subset_union_right))
    rw [← hunion, hfirstCard, hothersCard, hnil, hrest] at hcard
    rw [List.map_cons, List.sum_cons, hcard]
    omega

namespace Node

theorem mem_of_find {name : String} {child : Node} {children : List (String × Node)}
    (h : Keyed.find name children = some child) : (name, child) ∈ children := by
  induction children with
  | nil => simp [Keyed.find] at h
  | cons entry children ih =>
    obtain ⟨other, node⟩ := entry
    unfold Keyed.find at h
    split_ifs at h with hname
    · rw [hname, Option.some.inj h]
      exact List.mem_cons_self
    · exact List.mem_cons_of_mem _ (ih h)

/-- There are only finitely many places in a node. -/
theorem finite_places (n : Node) : {names | n.at? names ≠ none}.Finite := by
  have hchildren : ∀ entry ∈ n.children, {names | entry.2.at? names ≠ none}.Finite :=
    fun entry hentry => finite_places entry.2
  have hbelow : (⋃ entry ∈ {entry | entry ∈ n.children},
      List.cons entry.1 '' {names | entry.2.at? names ≠ none}).Finite :=
    Set.Finite.biUnion n.children.finite_toSet fun entry hentry =>
      (hchildren entry hentry).image (List.cons entry.1)
  refine ((Set.finite_singleton []).union hbelow).subset ?_
  rintro (_ | ⟨name, names⟩) hnames
  · exact Or.inl rfl
  · right
    simp only [Set.mem_ofPred_eq, at?] at hnames
    cases hfind : Keyed.find name n.children with
    | none => simp [hfind] at hnames
    | some child =>
      simp only [hfind] at hnames
      exact Set.mem_biUnion (mem_of_find hfind) ⟨names, hnames, rfl⟩
termination_by n
decreasing_by
  cases n with
  | file bytes => simp [Node.children] at hentry
  | directory children =>
    have hsize := List.sizeOf_lt_of_mem hentry
    obtain ⟨name, child⟩ := entry
    simp only [Node.children] at hsize
    simp only [Prod.mk.sizeOf_spec, Node.directory.sizeOf_spec] at hsize ⊢
    omega

end Node

namespace FileSystem

variable {fs : FileSystem} {path name : String}

theorem finite_places (fs : FileSystem) (place : List String) :
    {names | fs.lookup (place ++ names) ≠ none}.Finite := by
  have hall : {names | fs.lookup names ≠ none}.Finite := by
    refine (Node.finite_places (.directory fs.root)).subset fun names hnames => ?_
    rwa [Set.mem_ofPred_eq, lookup, Ne, Option.map_eq_none_iff] at hnames
  exact hall.preimage (List.append_right_injective place).injOn

/-! ## Listings -/

theorem isDirectory_iff_exists_list :
    fs.isDirectory path = true ↔ ∃ entries, fs.list path = .ok entries := by
  rw [isDirectory_iff_resolve]
  constructor
  · rintro ⟨place, hresolve, hdirectory⟩
    exact exists_list hresolve hdirectory
  · rintro ⟨entries, hlist⟩
    obtain ⟨place, children, hresolve, hnode, -⟩ := exists_of_list hlist
    exact ⟨place, hresolve, by rw [lookup, hnode]; rfl⟩

theorem mem_entries_iff {entries : List (String × Bool)} (h : fs.list path = .ok entries)
    {isDirectory : Bool} :
    (name, isDirectory) ∈ entries ↔ fs.lookup (fs.spot path ++ [name]) ≠ none ∧
      isDirectory = (fs.lookup (fs.spot path ++ [name]) == some .directory) := by
  obtain ⟨place, children, hresolve, hnode, rfl⟩ := exists_of_list h
  obtain rfl : place = fs.spot path := eq_spot_of_resolve hresolve
  rw [List.mem_map, Ne, lookup_append_singleton_eq_none_iff hnode]
  constructor
  · rintro ⟨other, hother, heq⟩
    obtain ⟨rfl, rfl⟩ := Prod.mk.inj heq
    exact ⟨(Node.mem_names _ _).1 hother, rfl⟩
  · rintro ⟨hthere, rfl⟩
    exact ⟨name, (Node.mem_names _ _).2 hthere, rfl⟩

theorem nodup_entries {entries : List (String × Bool)} (h : fs.list path = .ok entries) :
    (entries.map Prod.fst).Nodup := by
  obtain ⟨place, children, -, -, rfl⟩ := exists_of_list h
  rw [List.map_map]
  exact List.map_id _ ▸ (Node.pairwise_names _).nodup

/-! ## Walks -/

/-- The path text continued by names. -/
def along (path : String) (names : List String) : String :=
  names.foldl Path.join path

theorem extends_along {names : List String} (h : ∀ name ∈ names, IsName name) (path : String) :
    Extends path (along path names) names := by
  have hspec : ∀ name ∈ (⟨names⟩ : PathSpec).segments, IsName name := h
  exact extends_below path hspec

/-- A walk from the path comes to what stands under the names: there is something, and every
    directory on the way to it can be listed. -/
structure Visits (fs : FileSystem) (path : String) (names : List String) : Prop where
  there : fs.lookup (fs.spot path ++ names) ≠ none
  listed : ∀ above, above <+: names → above ≠ names → fs.isDirectory (along path above) = true

/-- How many of the places that a walk from the path comes to satisfy the condition. -/
noncomputable def census (fs : FileSystem) (path : String) (p : List String → Bool) : Nat :=
  {names | fs.Visits path names ∧ p names = true}.ncard

theorem finite_visits (fs : FileSystem) (path : String) (p : List String → Bool) :
    {names | fs.Visits path names ∧ p names = true}.Finite :=
  (fs.finite_places (fs.spot path)).subset fun _ hnames => hnames.1.there

theorem prefix_of_cons (place : List String) (name : String) (rest : List String) :
    place ++ [name] <+: place ++ name :: rest :=
  (List.prefix_append_right_inj place).2 ((List.prefix_cons_inj name).2 List.nil_prefix)

theorem spot_join (fs : FileSystem) (path : String) (hname : IsName name) :
    fs.spot (Path.join path name) = fs.spot path ++ [name] :=
  ((Extends.refl path).join hname).spot_eq fs

theorem spot_join_append (fs : FileSystem) (path : String) (hname : IsName name)
    (rest : List String) : fs.spot (Path.join path name) ++ rest = fs.spot path ++ name :: rest := by
  rw [spot_join fs path hname, List.append_assoc]
  rfl

theorem visits_cons_iff (hname : IsName name) {rest : List String} :
    fs.Visits path (name :: rest) ↔
      fs.isDirectory path = true ∧ fs.Visits (Path.join path name) rest := by
  have hplace := spot_join_append fs path hname rest
  constructor
  · rintro ⟨hthere, hlisted⟩
    refine ⟨hlisted [] List.nil_prefix (by simp), by rwa [hplace], fun above habove hne => ?_⟩
    exact hlisted (name :: above) ((List.prefix_cons_inj name).2 habove) (by simpa using hne)
  · rintro ⟨hdirectory, hthere, hlisted⟩
    refine ⟨by rwa [← hplace], fun above habove hne => ?_⟩
    cases above with
    | nil => exact hdirectory
    | cons other above =>
      obtain ⟨rfl, hrest⟩ := List.cons_prefix_cons.1 habove
      exact hlisted above hrest (by simpa using hne)

theorem visits_nil (hthere : fs.lookup (fs.spot path) ≠ none) : fs.Visits path [] := by
  refine ⟨by rwa [List.append_nil], fun above habove hne => ?_⟩
  exact absurd (List.prefix_nil.1 habove) hne

theorem ncard_inter_nil (h : fs.Visits path []) (p : List String → Bool) :
    ({names | fs.Visits path names ∧ p names = true} ∩ {[]}).ncard = if p [] then 1 else 0 := by
  split_ifs with hnil
  · have hmem : [] ∈ {names | fs.Visits path names ∧ p names = true} := ⟨h, hnil⟩
    rw [Set.inter_eq_right.2 (Set.singleton_subset_iff.2 hmem), Set.ncard_singleton]
  · have hmem : [] ∉ {names | fs.Visits path names ∧ p names = true} := fun hmem => hnil hmem.2
    rw [Set.inter_singleton_eq_empty.2 hmem, Set.ncard_empty]

/-- A walk ends at what cannot be listed. -/
theorem census_of_leaf (hthere : fs.lookup (fs.spot path) ≠ none)
    (hdirectory : fs.isDirectory path = false) (p : List String → Bool) :
    fs.census path p = if p [] then 1 else 0 := by
  have hset : {names | fs.Visits path names ∧ p names = true} =
      {names | fs.Visits path names ∧ p names = true} ∩ {[]} := by
    refine (Set.inter_eq_left.2 ?_).symm
    rintro names ⟨⟨-, hlisted⟩, -⟩
    by_contra hne
    have habove := hlisted [] List.nil_prefix (Ne.symm hne)
    exact Bool.false_ne_true (hdirectory.symm.trans habove)
  unfold census
  rw [hset, ncard_inter_nil (visits_nil hthere)]

/-- A walk comes to the directory itself and then to what walks from its names come to. -/
theorem census_of_list (hfs : fs.WellFormed) {entries : List (String × Bool)}
    (h : fs.list path = .ok entries) (p : List String → Bool) :
    fs.census path p = (if p [] then 1 else 0) +
      (entries.map fun entry =>
        fs.census (Path.join path entry.1) fun rest => p (entry.1 :: rest)).sum := by
  have hdirectory : fs.isDirectory path = true := isDirectory_iff_exists_list.2 ⟨entries, h⟩
  have hmem : ∀ {name}, name ∈ entries.map Prod.fst ↔ fs.lookup (fs.spot path ++ [name]) ≠ none := by
    intro name
    rw [List.mem_map]
    constructor
    · rintro ⟨⟨other, isDirectory⟩, hentry, rfl⟩
      exact ((mem_entries_iff h).1 hentry).1
    · intro hthere
      exact ⟨_, (mem_entries_iff h).2 ⟨hthere, rfl⟩, rfl⟩
  have hheads : ∀ name rest, name :: rest ∈ {names | fs.Visits path names ∧ p names = true} →
      name ∈ entries.map Prod.fst := by
    rintro name rest ⟨hvisits, -⟩
    rw [hmem]
    exact lookup_ne_none_above (prefix_of_cons _ name rest) hvisits.there
  unfold census
  rw [ncard_eq_sum_heads (fs.finite_visits path p) (nodup_entries h) hheads, List.map_map]
  obtain ⟨place, hresolve, hplace⟩ := isDirectory_iff_resolve.1 hdirectory
  obtain rfl : place = fs.spot path := eq_spot_of_resolve hresolve
  congr 1
  · exact ncard_inter_nil (visits_nil (by simp [hplace])) p
  · congr 1
    refine List.map_congr_left fun entry hentry => ?_
    have hname : IsName entry.1 := hfs.isName_of_list h hentry
    simp only [Function.comp_apply, Set.mem_ofPred_eq, visits_cons_iff hname, hdirectory, true_and]

/-! ## Files and directories -/

/-- How many files a walk from the path comes to. -/
noncomputable def filesBelow (fs : FileSystem) (path : String) : Nat :=
  fs.census path fun names => fs.kind? (fs.spot path ++ names) == some .file

/-- How many directories with the property a walk from the path comes to, itself included. -/
noncomputable def directoriesBelow (fs : FileSystem) (path : String) (p : List String → Bool) :
    Nat :=
  fs.census path fun names => fs.kind? (fs.spot path ++ names) == some .directory && p names

theorem lookup_ne_none_of_kind? {place : List String} {kind : Kind}
    (h : fs.kind? place = some kind) : fs.lookup place ≠ none := by
  intro hnone
  rw [kind?_eq_none_iff.2 hnone] at h
  simp at h

theorem filesBelow_of_leaf {kind : Kind} (hkind : fs.kind? (fs.spot path) = some kind)
    (hleaf : fs.isDirectory path = false) : fs.filesBelow path = if kind = .file then 1 else 0 := by
  unfold filesBelow
  rw [census_of_leaf (lookup_ne_none_of_kind? hkind) hleaf, List.append_nil, hkind]
  simp

theorem directoriesBelow_of_leaf {kind : Kind} (hkind : fs.kind? (fs.spot path) = some kind)
    (hleaf : fs.isDirectory path = false) (p : List String → Bool) :
    fs.directoriesBelow path p = if kind = .directory ∧ p [] = true then 1 else 0 := by
  unfold directoriesBelow
  rw [census_of_leaf (lookup_ne_none_of_kind? hkind) hleaf, List.append_nil, hkind]
  simp

theorem kind?_of_list {entries : List (String × Bool)} (h : fs.list path = .ok entries) :
    fs.kind? (fs.spot path) = some .directory := by
  obtain ⟨place, children, hresolve, hnode, -⟩ := exists_of_list h
  obtain rfl : place = fs.spot path := eq_spot_of_resolve hresolve
  rw [kind?_eq_directory_iff, lookup, hnode]
  rfl

/-- A listing tells apart what stands under its names. -/
theorem kind?_of_mem_entries (hfs : fs.WellFormed) {entries : List (String × Bool)}
    (h : fs.list path = .ok entries) {isDirectory : Bool} (hentry : (name, isDirectory) ∈ entries) :
    fs.kind? (fs.spot (Path.join path name)) = some (if isDirectory then .directory else .file) := by
  obtain ⟨hthere, rfl⟩ := (mem_entries_iff h).1 hentry
  rw [spot_join fs path (hfs.isName_of_list h hentry)]
  cases hlookup : fs.lookup (fs.spot path ++ [name]) with
  | none => exact absurd hlookup hthere
  | some entry =>
    cases entry with
    | directory => exact kind?_eq_directory_iff.2 hlookup
    | file bytes => exact kind?_eq_file_iff.2 ⟨bytes, hlookup⟩

/-- A file cannot be listed. -/
theorem isDirectory_of_kind?_file (h : fs.kind? (fs.spot path) = some .file) :
    fs.isDirectory path = false := by
  by_contra hdirectory
  obtain ⟨entries, hlist⟩ := isDirectory_iff_exists_list.1 (Bool.not_eq_false _ ▸ hdirectory)
  rw [kind?_of_list hlist] at h
  simp at h

theorem filesBelow_of_list (hfs : fs.WellFormed) {entries : List (String × Bool)}
    (h : fs.list path = .ok entries) :
    fs.filesBelow path = (entries.map fun entry => fs.filesBelow (Path.join path entry.1)).sum := by
  have hentries : ∀ entry ∈ entries,
      (fs.census (Path.join path entry.1) fun rest =>
        fs.kind? (fs.spot path ++ entry.1 :: rest) == some .file) =
      fs.filesBelow (Path.join path entry.1) := by
    intro entry hentry
    simp only [filesBelow, spot_join_append fs path (hfs.isName_of_list h hentry)]
  rw [filesBelow, census_of_list hfs h, List.map_congr_left hentries, List.append_nil,
    kind?_of_list h, if_neg (by decide), Nat.zero_add]

theorem directoriesBelow_of_list (hfs : fs.WellFormed) {entries : List (String × Bool)}
    (h : fs.list path = .ok entries) (p : List String → Bool) :
    fs.directoriesBelow path p = (if p [] then 1 else 0) +
      (entries.map fun entry =>
        fs.directoriesBelow (Path.join path entry.1) fun rest => p (entry.1 :: rest)).sum := by
  have hentries : ∀ entry ∈ entries,
      (fs.census (Path.join path entry.1) fun rest =>
        fs.kind? (fs.spot path ++ entry.1 :: rest) == some .directory && p (entry.1 :: rest)) =
      fs.directoriesBelow (Path.join path entry.1) fun rest => p (entry.1 :: rest) := by
    intro entry hentry
    simp only [directoriesBelow, spot_join_append fs path (hfs.isName_of_list h hentry)]
  rw [directoriesBelow, census_of_list hfs h, List.map_congr_left hentries, List.append_nil,
    kind?_of_list h, beq_self_eq_true, Bool.true_and]

/-! ## Walks that come to everything -/

/-- Every place below the path is come to. -/
def VisitsAll (fs : FileSystem) (path : String) : Prop :=
  ∀ names, fs.lookup (fs.spot path ++ names) ≠ none → fs.Visits path names

theorem visitsAll_of_list (hfs : fs.WellFormed) {entries : List (String × Bool)}
    (h : fs.list path = .ok entries)
    (hall : ∀ entry ∈ entries, fs.VisitsAll (Path.join path entry.1)) : fs.VisitsAll path := by
  rintro (_ | ⟨name, rest⟩) hthere
  · exact visits_nil (by rwa [List.append_nil] at hthere)
  · have hname := lookup_ne_none_above (prefix_of_cons _ name rest) hthere
    have hentry := (mem_entries_iff h).2 ⟨hname, rfl⟩
    have hvalid := hfs.isName_of_list h hentry
    rw [← spot_join_append fs path hvalid] at hthere
    exact (visits_cons_iff hvalid).2
      ⟨isDirectory_iff_exists_list.2 ⟨entries, h⟩, hall _ hentry rest hthere⟩

/-- Where nothing is listed, by whatever path text, there is nothing to come to. -/
theorem visitsAll_of_empty {other : String} (hspot : fs.spot other = fs.spot path)
    (h : fs.list other = .ok []) : fs.VisitsAll path := by
  rintro (_ | ⟨name, rest⟩) hthere
  · exact visits_nil (by rwa [List.append_nil] at hthere)
  · have hname := lookup_ne_none_above (prefix_of_cons _ name rest) hthere
    rw [← hspot] at hname
    exact absurd ((mem_entries_iff h).2 ⟨hname, rfl⟩) List.not_mem_nil

theorem filesBelow_eq_ncard (h : fs.VisitsAll path) :
    fs.filesBelow path = {names | fs.kind? (fs.spot path ++ names) = some .file}.ncard := by
  unfold filesBelow census
  congr 1
  ext names
  simp only [Set.mem_ofPred_eq, beq_iff_eq, and_iff_right_iff_imp]
  exact fun hkind => h names (lookup_ne_none_of_kind? hkind)

theorem directoriesBelow_eq_ncard (h : fs.VisitsAll path) (p : List String → Bool) :
    fs.directoriesBelow path p =
      {names | fs.kind? (fs.spot path ++ names) = some .directory ∧ p names = true}.ncard := by
  unfold directoriesBelow census
  congr 1
  ext names
  simp only [Set.mem_ofPred_eq, Bool.and_eq_true, beq_iff_eq, and_iff_right_iff_imp]
  exact fun hkind => h names (lookup_ne_none_of_kind? hkind.1)

end FileSystem

end Scaffold
