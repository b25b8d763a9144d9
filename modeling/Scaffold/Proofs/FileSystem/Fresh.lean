import Scaffold.Proofs.FileSystem.Census
import Scaffold.Proofs.FileSystem.Inside
import Scaffold.Proofs.FileSystem.Lengths
import Scaffold.Proofs.FileSystem.Makeable

set_option autoImplicit false

/-! # Making a place that is not there

Below a directory, a place can be named by names that the system takes. If nothing but missing
directories is in the way, the place can be made a directory, and then nothing has changed but that
it and the missing directories above it are there (`exists_makeDirectories_names`). -/

namespace Scaffold

namespace FileSystem

variable {fs s t u : FileSystem} {root path name : String} {top names : List String}

/-- A name that the system takes: it is short enough, and there is no null character in it. -/
structure IsLegal (name : String) : Prop where
  isName : IsName name
  null_not_mem : '\x00' ∉ name.toList
  short : name.utf8ByteSize ≤ nameLimit

instance (name : String) : Decidable (IsLegal name) :=
  decidable_of_iff (IsName name ∧ '\x00' ∉ name.toList ∧ name.utf8ByteSize ≤ nameLimit)
    ⟨fun ⟨hname, hnull, hshort⟩ => ⟨hname, hnull, hshort⟩,
      fun ⟨hname, hnull, hshort⟩ => ⟨hname, hnull, hshort⟩⟩

/-- A name by which something is found is one that the system takes. -/
theorem isLegal_of_isThere (hname : IsName name) (h : fs.isThere (Path.join path name) = true) :
    IsLegal name := by
  have habsolute := isAbsolute_of_isName hname
  obtain ⟨place, hresolve, -⟩ := isThere_iff.1 h
  obtain ⟨haccepts, hfollow⟩ := resolve_eq_ok_iff.1 hresolve
  rw [strictPieces_join path hname, pieces_join path habsolute, pieces_of_isName hname] at hfollow
  obtain ⟨here, -, hdirectory, hlast⟩ := exists_found_of_follow_append hfollow
  refine ⟨hname, fun hnull => haccepts.1 ?_, not_lt.1 fun hlong => ?_⟩
  · rcases join_eq path habsolute with heq | heq
    · rw [heq, String.toList_append]
      exact List.mem_append_right _ hnull
    · rw [heq, String.toList_append, String.toList_append]
      exact List.mem_append_right _ (List.mem_append_right _ hnull)
  · rw [follow_long hdirectory hname.isStep hlong] at hlast
    simp at hlast

theorem lookup_cons_eq_none {place : List String} (h : fs.lookup (place ++ [name]) = none)
    (rest : List String) : fs.lookup (place ++ name :: rest) = none := by
  by_contra hthere
  exact lookup_ne_none_above (prefix_of_cons place name rest) hthere h

/-- A file that is found can be read. -/
theorem exists_read_of_isThere (h : fs.isThere path = true)
    (hkind : fs.kind? (fs.spot path) = some .file) : ∃ bytes, fs.read path = .ok bytes := by
  obtain ⟨place, hresolve, -⟩ := isThere_iff.1 h
  obtain rfl : place = fs.spot path := eq_spot_of_resolve hresolve
  obtain ⟨bytes, hfile⟩ := kind?_eq_file_iff.1 hkind
  exact ⟨bytes, read_eq_ok_iff.2 ⟨_, hresolve, hfile⟩⟩

/-! ## Names that lead to a place -/

theorem follow_names (hnames : ∀ name ∈ names, IsLegal name) {here : List String}
    (hthere : fs.lookup (here ++ names) ≠ none) :
    fs.follow here names = .ok (.found (here ++ names)) := by
  induction names generalizing here with
  | nil =>
    rw [List.append_nil]
    rfl
  | cons name rest ih =>
    obtain ⟨hname, -, hshort⟩ := hnames name List.mem_cons_self
    have hnext : fs.lookup (here ++ [name]) ≠ none :=
      lookup_ne_none_above (prefix_of_cons here name rest) hthere
    have hrest : here ++ name :: rest = here ++ [name] ++ rest := by simp
    rw [follow_name (lookup_of_append (by simp) hnext) hname.isStep (not_lt.2 hshort) hnext, hrest]
    rw [hrest] at hthere
    exact ih (fun other hother => hnames other (List.mem_cons_of_mem _ hother)) hthere

theorem Extends.leadsTo (h : Extends root path names) (hroot : fs.LeadsTo root top)
    (hnames : ∀ name ∈ names, IsLegal name) (hthere : fs.lookup (top ++ names) ≠ none) :
    fs.LeadsTo path (top ++ names) := by
  unfold LeadsTo
  rw [h.pieces_eq, start_eq_start h.isAbsolute, follow_append_of_found hroot]
  exact follow_names hnames hthere

/-! ## Missing directories -/

theorem isFree_of_lookup (hname : IsLegal name) {directory : List String}
    (hdirectory : fs.lookup directory = some .directory)
    (hplace : fs.lookup (directory ++ [name]) = none) :
    fs.IsFree directory [name] directory name :=
  ⟨hname.isName.isStep, not_lt.2 hname.short, hdirectory, hplace, [], rfl, rfl⟩

/-- On the way to a name that is free in a directory there is no file. -/
theorem lookup_ne_file_of_free (hdirectory : s.lookup top = some .directory)
    (hfree : s.lookup (top ++ [name]) = none) :
    ∀ way, way <+: top ++ [name] → ∀ bytes, s.lookup way ≠ some (.file bytes) := by
  intro way hon bytes
  rcases List.prefix_concat_iff.1 hon with rfl | hon
  · rw [hfree]
    simp
  · rw [lookup_above hon hdirectory]
    simp

/-- If there is no file on the way, directories can be added one after the other. -/
theorem exists_addsDirectories_names (htop : s.lookup top = some .directory)
    (hnames : ∀ name ∈ names, IsLegal name)
    (hway : ∀ way, way <+: top ++ names → ∀ bytes, s.lookup way ≠ some (.file bytes)) :
    ∃ t, AddsDirectories top s t ∧ t.lookup (top ++ names) = some .directory := by
  induction names using List.reverseRecOn with
  | nil => exact ⟨s, .refl top s, by rwa [List.append_nil]⟩
  | append_singleton before name ih =>
    have hplace : top ++ (before ++ [name]) = top ++ before ++ [name] :=
      (List.append_assoc _ _ _).symm
    obtain ⟨t, hadds, hbefore⟩ := ih (fun other hother => hnames other (by simp [hother]))
      fun way hon => hway way (hon.trans ⟨[name], hplace.symm⟩)
    rw [hplace] at hway ⊢
    cases hlast : t.lookup (top ++ before ++ [name]) with
    | none =>
      have hfree := isFree_of_lookup (hnames name (by simp)) hbefore hlast
      have hbelow : top <+: top ++ before ++ [name] := ⟨before ++ [name], hplace⟩
      refine ⟨_, hadds.trans (hfree.addsDirectories_put hbelow), ?_⟩
      rw [hfree.lookup_put_directory, if_pos rfl]
    | some entry =>
      cases entry with
      | directory => exact ⟨t, hadds, hlast⟩
      | file bytes => exact absurd (hadds.file_iff.1 hlast) (hway _ List.prefix_rfl bytes)

/-- What making a directory adds stands above the place that it leads to. -/
theorem Extends.prefix_of_changed (h : Extends root path names) (hne : names ≠ [])
    (hroot : s.IsRoot root top) {place : List String}
    (hplace : (s.makeDirectories path).2.lookup place ≠ s.lookup place) :
    place <+: top ++ names := by
  have hmakes := makes_makeLineage (Path.ancestors path) s
  obtain ⟨hnone, -, other, hother, hleads⟩ := hmakes.changed hplace
  obtain ⟨habsolute, -, hsteps, hbegins⟩ := (h.liesAlong hne).of_mem_ancestors hother
  have hspot : place = walk (s.start root) (moves (pieces other)) := by
    rw [hleads.eq_spot, spot_congr hmakes.addsDirectories.workDir, spot, walk_moves,
      start_eq_start habsolute]
  rcases List.prefix_or_prefix_of_prefix hbegins (List.prefix_append _ _) with hon | ⟨behind, heq⟩
  · -- on the way to the root nothing was missing
    rw [hspot, lookup_walk_of_leadsTo hroot.leadsTo hroot.directory hon] at hnone
    simp at hnone
  · rw [← heq, List.prefix_append_right_inj] at hbegins
    have htop : walk (s.start root) (pieces root) = top := hroot.leadsTo.eq_spot.symm
    rw [hspot, ← heq, walk_append, walk_moves, htop,
      walk_names fun name hname => hsteps name (hbegins.subset hname)]
    exact (List.prefix_append_right_inj top).2 hbegins

/-- A place that only missing directories are in the way of can be made a directory. -/
theorem exists_makeDirectories_names (h : Extends root path names) (hne : names ≠ [])
    (hroot : s.IsRoot root top) (haccepts : Accepts path) (hnames : ∀ name ∈ names, IsLegal name)
    (hway : ∀ way, way <+: top ++ names → ∀ bytes, s.lookup way ≠ some (.file bytes)) :
    ∃ made, s.makeDirectories path = (.ok (), made) ∧ made.IsRoot path (top ++ names) ∧
      AddsDirectories top s made ∧
      ∀ place, made.lookup place ≠ s.lookup place → place <+: top ++ names := by
  obtain ⟨t, hadds, hthere⟩ := exists_addsDirectories_names hroot.directory hnames hway
  have hleads : t.LeadsTo path (top ++ names) :=
    h.leadsTo (hroot.leadsTo.of_growsBelow hadds.growsBelow) hnames (by simp [hthere])
  have hdirectory : t.isDirectory path = true := isDirectory_iff.2 ⟨haccepts, _, hleads, hthere⟩
  obtain ⟨ancestors, heq, hlineage⟩ := isLineage_cons_ancestors path
  obtain ⟨made, hmade⟩ := exists_makeLineage_of_isDirectory hlineage (h.isProper hne)
    (hroot.lookup_start h.isAbsolute) (hadds.mono List.nil_prefix) hdirectory
  have hmade : s.makeDirectories path = (.ok (), made) := by
    unfold makeDirectories
    rw [heq, hmade]
  have hadds' := addsDirectories_makeDirectories_below (h.liesAlong hne) hroot
  have hchanged : ∀ place, made.lookup place ≠ s.lookup place → place <+: top ++ names := by
    intro place hplace
    refine h.prefix_of_changed hne hroot ?_
    rwa [hmade]
  rw [hmade] at hadds'
  obtain ⟨-, place, hplace, hplaceThere⟩ :=
    isDirectory_iff.1 (isDirectory_of_makeDirectories haccepts.2.1 hmade)
  have hspot : place = top ++ names := by
    rw [hplace.eq_spot, h.spot_eq, (hroot.leadsTo.of_growsBelow hadds'.growsBelow).eq_spot]
  exact ⟨made, hmade, hspot ▸ ⟨hplace, hplaceThere⟩, hadds', hchanged⟩

/-- Making the path text a directory has led to an empty directory at the place. -/
structure MakesFresh (s : FileSystem) (path : String) (place : List String) (made : FileSystem) :
    Prop where
  makes : s.makeDirectories path = (.ok (), made)
  isRoot : made.IsRoot path place
  empty : ∀ name, made.lookup (place ++ [name]) = none

/-- Where nothing is yet, what has been made is an empty directory. -/
theorem exists_makesFresh_names (h : Extends root path names) (hne : names ≠ [])
    (hroot : s.IsRoot root top) (haccepts : Accepts path) (hnames : ∀ name ∈ names, IsLegal name)
    (hway : ∀ way, way <+: top ++ names → ∀ bytes, s.lookup way ≠ some (.file bytes))
    (hfree : s.lookup (top ++ names) = none) :
    ∃ made, s.MakesFresh path (top ++ names) made ∧ AddsDirectories top s made ∧
      ∀ place, made.lookup place ≠ s.lookup place → place <+: top ++ names := by
  obtain ⟨made, hmade, hmadeRoot, hadds, hchanged⟩ :=
    exists_makeDirectories_names h hne hroot haccepts hnames hway
  refine ⟨made, ⟨hmade, hmadeRoot, fun name => ?_⟩, hadds, hchanged⟩
  have hsame : made.lookup (top ++ names ++ [name]) = s.lookup (top ++ names ++ [name]) := by
    by_contra hne
    have hlength := (hchanged _ hne).length_le
    simp at hlength
  rw [hsame]
  exact lookup_append_eq_none (List.cons_ne_nil name []) (by simp [hfree])

/-- A name in a directory that is not taken can be made a directory, and nothing else changes. -/
theorem exists_makesFresh_join (hroot : s.IsRoot path top) (hname : IsLegal name)
    (haccepts : Accepts (Path.join path name)) (hfree : s.lookup (top ++ [name]) = none) :
    ∃ made, s.MakesFresh (Path.join path name) (top ++ [name]) made ∧ AddsDirectories top s made ∧
      ∀ other, other ≠ top ++ [name] → made.lookup other = s.lookup other := by
  have hjoin := (Extends.refl path).join hname.isName
  have hnames : ∀ other ∈ [name], IsLegal other := by simpa using hname
  have hway := lookup_ne_file_of_free hroot.directory hfree
  obtain ⟨made, hmade, hadds, hchanged⟩ :=
    exists_makesFresh_names hjoin (by simp) hroot haccepts hnames hway hfree
  refine ⟨made, hmade, hadds, fun other hother => ?_⟩
  by_contra hne
  -- what stands above the name was there
  rcases List.prefix_concat_iff.1 (hchanged other hne) with heq | hon
  · exact hother heq
  · exact hne (hadds.kept other (by simp [lookup_above hon hroot.directory]))

/-- Below a directory, a name that is not taken is free. -/
theorem resolve_join_of_lookup (hroot : fs.IsRoot path top) (hname : IsLegal name)
    (haccepts : Accepts (Path.join path name)) (hfree : fs.lookup (top ++ [name]) = none) :
    fs.resolve (Path.join path name) = .ok (.free top name) := by
  have hjoin := (Extends.refl path).join_name hname.isName
  refine (resolve_eq_ok_iff_of_extends hjoin hroot.leadsTo).2 ⟨haccepts, ?_⟩
  exact follow_missing hroot.directory hname.isName.isStep (not_lt.2 hname.short) hfree []

end FileSystem

end Scaffold
