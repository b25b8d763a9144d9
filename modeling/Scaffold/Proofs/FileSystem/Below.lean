import Scaffold.Proofs.FileSystem.Lineage

set_option autoImplicit false

/-! # Directories below a root

A root is a path text that leads to a directory. Where a path text extends a root by names, the
directories on its way that are missing are made below the root and nowhere else, and what came of
making them once comes of making them again, without any further change. -/

namespace Scaffold

namespace FileSystem

variable {fs s t made : FileSystem} {root path parent : String} {top names : List String}

/-- The path text leads to a directory. -/
structure IsRoot (fs : FileSystem) (root : String) (top : List String) : Prop where
  leadsTo : fs.LeadsTo root top
  directory : fs.lookup top = some .directory

theorem IsRoot.of_growsBelow {place : List String} (h : s.IsRoot root top)
    (hgrows : GrowsBelow place s t) : t.IsRoot root top :=
  ⟨h.leadsTo.of_growsBelow hgrows, hgrows.directory top h.directory⟩

theorem IsRoot.lookup_start (h : fs.IsRoot root top)
    (habsolute : Path.isAbsolute path.toList = Path.isAbsolute root.toList) :
    fs.lookup (fs.start path) = some .directory := by
  rw [start_eq_start habsolute]
  exact lookup_of_follow h.leadsTo h.directory

/-- The path text lies on the way from where it starts to the root and from there along the
    names. -/
structure LiesAlong (root path : String) (names : List String) : Prop where
  isAbsolute : Path.isAbsolute path.toList = Path.isAbsolute root.toList
  isProper : IsProper path
  isStep : ∀ name ∈ names, IsStep name
  begins : moves (pieces path) <+: moves (pieces root) ++ names

theorem moves_append_names (before : List String) (h : ∀ name ∈ names, IsStep name) :
    moves (before ++ names) = moves before ++ names := by
  have hnames : moves names = names := List.filter_eq_self.2 fun name hname => by
    simpa using (h name hname).1
  rw [moves, List.filter_append, ← moves, ← moves, hnames]

theorem Extends.moves_eq (h : Extends root path names) :
    moves (pieces path) = moves (pieces root) ++ names := by
  rw [h.pieces_eq, moves_append_names _ fun name hname => (h.isName name hname).isStep]

theorem Extends.isProper (h : Extends root path names) (hne : names ≠ []) : IsProper path := by
  obtain ⟨before, last, rfl⟩ := List.eq_nil_or_concat names |>.resolve_left hne
  left
  have hlast := (h.isName last (by simp)).isStep.1
  rw [h.pieces_eq, List.concat_eq_append, ← List.append_assoc, List.getLast?_concat]
  exact fun heq => hlast (Option.some.inj heq)

theorem Extends.liesAlong (h : Extends root path names) (hne : names ≠ []) :
    LiesAlong root path names :=
  ⟨h.isAbsolute, h.isProper hne, fun name hname => (h.isName name hname).isStep,
    by rw [h.moves_eq]⟩

theorem Extends.liesAlong_parent (h : Extends root path names)
    (hparent : Path.parent? path = some parent) : LiesAlong root parent names := by
  have hparent := isParent_of_parent? hparent
  refine ⟨hparent.isAbsolute.trans h.isAbsolute, hparent.isProper,
    fun name hname => (h.isName name hname).isStep, ?_⟩
  rw [← h.moves_eq]
  exact hparent.moves_begin

theorem LiesAlong.of_mem_ancestors {other : String} (h : LiesAlong root path names)
    (hother : other ∈ Path.ancestors path) : LiesAlong root other names := by
  obtain ⟨ancestors, heq, hlineage⟩ := isLineage_cons_ancestors path
  rw [heq] at hother
  obtain ⟨habsolute, hmoves⟩ := hlineage.begins_of_mem hother
  exact ⟨habsolute.trans h.isAbsolute, hlineage.isProper_of_mem h.isProper hother, h.isStep,
    hmoves.trans h.begins⟩

/-- What is missing on the way to the root and from there along the names is missing below the
    root. -/
theorem below_of_free (hroot : fs.IsRoot root top)
    (habsolute : Path.isAbsolute path.toList = Path.isAbsolute root.toList)
    (hsteps : ∀ name ∈ names, IsStep name)
    (hbegins : moves (pieces path) <+: moves (pieces root) ++ names)
    {directory : List String} {name : String}
    (hfree : fs.resolvePieces path (pieces path) = .ok (.free directory name)) :
    top <+: directory ++ [name] := by
  have hproper : IsProper path := (isFree_of_resolvePieces hfree).2.isProper
  have hstart := hroot.lookup_start habsolute
  have hfollow := (resolvePieces_eq_ok_iff.1 hfree).2
  rw [← follow_start_moves hproper hstart] at hfollow
  have htop := follow_moves_of_found hroot.leadsTo
  rw [← start_eq_start habsolute] at htop
  rcases List.prefix_or_prefix_of_prefix hbegins (List.prefix_append (moves (pieces root)) names)
    with ⟨rest, hrest⟩ | ⟨rest, hrest⟩
  · -- the path to the root is followed through
    rw [← hrest, follow_append, hfollow] at htop
    dsimp only at htop
    split_ifs at htop
    simp at htop
  · rw [← hrest, follow_append_of_found htop] at hfollow
    have hsteps : ∀ name ∈ rest, IsStep name := by
      rw [← hrest, List.prefix_append_right_inj] at hbegins
      exact fun name hname => hsteps name (hbegins.subset hname)
    rcases eq_of_follow_names hsteps hfollow with heq | ⟨_, _, heq, hplace⟩
    · simp at heq
    · obtain ⟨rfl, rfl⟩ := Target.free.inj heq
      rw [hplace]
      exact List.prefix_append _ _

/-- What is missing along the way is missing below the root. -/
theorem LiesAlong.below_of_free (h : LiesAlong root path names) (hroot : fs.IsRoot root top)
    {directory : List String} {name : String}
    (hfree : fs.resolvePieces path (pieces path) = .ok (.free directory name)) :
    top <+: directory ++ [name] :=
  FileSystem.below_of_free hroot h.isAbsolute h.isStep h.begins hfree

/-- The path text extends the root and ends in a name, not in a slash. -/
structure ExtendsToName (root path : String) (names : List String) : Prop
    extends Extends root path names where
  ne_nil : names ≠ []
  strictPieces_eq : strictPieces path = pieces path

theorem Extends.join_name {name : String} (h : Extends root path names) (hname : IsName name) :
    ExtendsToName root (Path.join path name) (names ++ [name]) :=
  ⟨h.join hname, by simp, strictPieces_join path hname⟩

/-- The parent lacks the last name. -/
theorem ExtendsToName.exists_parent (h : ExtendsToName root path names) :
    ∃ parent move, Path.parent? path = some parent ∧ IsParent path parent ∧
      moves (pieces path) = moves (pieces parent) ++ [move] := by
  have hnonempty : moves (pieces path) ≠ [] := by
    rw [h.moves_eq]
    simp [h.ne_nil]
  cases hparent : Path.parent? path with
  | none => exact absurd (moves_of_parent?_eq_none hparent) hnonempty
  | some parent =>
    have hlacks := isParent_of_parent? hparent
    obtain ⟨move, hmoves⟩ := hlacks.moves_eq.resolve_left fun hnil => hnonempty hnil.1
    exact ⟨parent, move, rfl, hlacks, hmoves⟩

/-- Path texts that extend a root by the same names lead to the same. -/
theorem ExtendsToName.resolve_congr {other : String} (h : ExtendsToName root path names)
    (h' : ExtendsToName root other names) (hpath : Accepts path) (hother : Accepts other)
    (fs : FileSystem) : fs.resolve path = fs.resolve other := by
  unfold resolve
  rw [h.strictPieces_eq, h'.strictPieces_eq, resolvePieces_of_accepts hpath,
    resolvePieces_of_accepts hother, h.pieces_eq, h'.pieces_eq, start, start, h.isAbsolute,
    h'.isAbsolute]

/-! ## Making directories -/

theorem addsDirectories_makeDirectories_below (h : LiesAlong root path names)
    (hroot : s.IsRoot root top) : AddsDirectories top s (s.makeDirectories path).2 :=
  addsDirectories_makeLineage _ s fun _ _ _ _ hother hbetween hfree =>
    (h.of_mem_ancestors hother).below_of_free (hroot.of_growsBelow hbetween.growsBelow) hfree

theorem makeDirectories_of_ok (hs : s.makeDirectories path = (.ok (), made))
    (hgrows : GrowsBelow top made t) : t.makeDirectories path = (.ok (), t) := by
  by_cases hpath : path = ""
  · rw [hpath]
    exact makeDirectories_empty t
  · have hdirectory := isDirectory_of_makeDirectories hpath hs
    exact makeDirectories_of_isDirectory (isDirectory_of_growsBelow hgrows hdirectory)

/-- A directory that could be made is one to go on from. -/
theorem exists_isRoot_of_makeDirectories (hs : s.makeDirectories path = (.ok (), made))
    (hstart : made.lookup (made.start path) = some .directory) :
    ∃ place, made.IsRoot path place := by
  unfold makeDirectories at hs
  obtain ⟨ancestors, heq, -⟩ := isLineage_cons_ancestors path
  rw [heq] at hs
  obtain ⟨place, hplace, hdirectory⟩ := exists_leadsTo_of_makeLineage hs hstart
  exact ⟨place, hplace, hdirectory⟩

theorem exists_makeDirectories_of_error (h : LiesAlong root path names) (hroot : s.IsRoot root top)
    {cause : Cause} (hs : s.makeDirectories path = (.error cause, made))
    {place : List String} (hgrows : GrowsBelow place made t) :
    ∃ cause', t.makeDirectories path = (.error cause', t) := by
  unfold makeDirectories at hs ⊢
  obtain ⟨ancestors, heq, hlineage⟩ := isLineage_cons_ancestors path
  rw [heq] at hs ⊢
  exact exists_makeLineage_error hlineage h.isProper (hroot.lookup_start h.isAbsolute) hs hgrows

/-! ## Making the parent of a path -/

theorem addsDirectories_makeParent_below (h : Extends root path names)
    (hroot : s.IsRoot root top) : AddsDirectories top s (s.makeParent path).2 := by
  unfold makeParent
  split
  · next parent hparent =>
    exact addsDirectories_makeDirectories_below (h.liesAlong_parent hparent) hroot
  · exact .refl top s

theorem makeParent_of_ok (hs : s.makeParent path = (.ok (), made))
    (hgrows : GrowsBelow top made t) : t.makeParent path = (.ok (), t) := by
  unfold makeParent at hs ⊢
  split at hs
  · exact makeDirectories_of_ok hs hgrows
  · rfl

theorem exists_makeParent_of_error (h : Extends root path names) (hroot : s.IsRoot root top)
    {cause : Cause} (hs : s.makeParent path = (.error cause, made)) {place : List String}
    (hgrows : GrowsBelow place made t) : ∃ cause', t.makeParent path = (.error cause', t) := by
  unfold makeParent at hs ⊢
  split at hs
  · next parent hparent =>
    exact exists_makeDirectories_of_error (h.liesAlong_parent hparent) hroot hs hgrows
  · simp at hs

/-- Once the parent is there, nothing is missing for the path. -/
theorem resolve_ne_notFound_of_makeParent (h : ExtendsToName root path names)
    (hroot : s.IsRoot root top) (hs : s.makeParent path = (.ok (), made)) :
    made.resolve path ≠ .error (.system .notFound) := by
  have hadds := addsDirectories_makeParent_below h.toExtends hroot
  rw [hs] at hadds
  have hmade := hroot.of_growsBelow hadds.growsBelow
  obtain ⟨parent, move, hparent, hlacks, hmoves⟩ := h.exists_parent
  unfold makeParent at hs
  rw [hparent] at hs
  have hparentStart := hmade.lookup_start (hlacks.isAbsolute.trans h.isAbsolute)
  obtain ⟨place, hplace, hdirectory⟩ := exists_isRoot_of_makeDirectories hs hparentStart
  unfold resolve
  rw [h.strictPieces_eq]
  exact resolvePieces_ne_notFound hlacks hmoves (h.isProper h.ne_nil)
    (hmade.lookup_start h.isAbsolute) hplace hdirectory

/-- Where the path text leads to something or to a free name, its parent is there. -/
theorem makeParent_of_resolve (h : ExtendsToName root path names)
    (hstart : fs.lookup (fs.start path) = some .directory) {target : Target}
    (hresolve : fs.resolve path = .ok target) : fs.makeParent path = (.ok (), fs) := by
  obtain ⟨haccepts, hfollow⟩ := resolve_eq_ok_iff.1 hresolve
  rw [h.strictPieces_eq] at hfollow
  obtain ⟨parent, move, hparent, hlacks, hmoves⟩ := h.exists_parent
  obtain ⟨ancestors, heq, -⟩ := isLineage_cons_ancestors parent
  unfold makeParent makeDirectories
  rw [hparent]
  dsimp only
  rw [heq]
  exact makeLineage_of_follow hlacks hmoves (h.isProper h.ne_nil) haccepts hstart hfollow ancestors

/-- Nothing is missing for what is there already. -/
theorem makeParent_of_isThere (h : ExtendsToName root path names)
    (hstart : fs.lookup (fs.start path) = some .directory) (hthere : fs.isThere path = true) :
    fs.makeParent path = (.ok (), fs) := by
  obtain ⟨place, hresolve, -⟩ := isThere_iff.1 hthere
  exact makeParent_of_resolve h hstart hresolve

/-! ## Files below a root -/

theorem resolve_eq_ok_iff_of_extends (h : ExtendsToName root path names)
    (hroot : fs.LeadsTo root top) {target : Target} :
    fs.resolve path = .ok target ↔ Accepts path ∧ fs.follow top names = .ok target := by
  rw [resolve_eq_ok_iff, h.strictPieces_eq, h.pieces_eq, start_eq_start h.isAbsolute,
    follow_append_of_found hroot]

/-- A file stands where the names say. -/
theorem Opens.eq_of_extends {place : List String} (hopens : fs.Opens path place)
    (h : ExtendsToName root path names) (hroot : fs.LeadsTo root top) : place = top ++ names := by
  have hsteps : ∀ name ∈ names, IsStep name := fun name hname => (h.isName name hname).isStep
  cases hopens with
  | file hresolve hfile =>
    have hfollow := ((resolve_eq_ok_iff_of_extends h hroot).1 hresolve).2
    rcases eq_of_follow_names hsteps hfollow with heq | ⟨_, _, heq, -⟩
    · exact Target.found.inj heq
    · simp at heq
  | free hresolve =>
    have hfollow := ((resolve_eq_ok_iff_of_extends h hroot).1 hresolve).2
    rcases eq_of_follow_names hsteps hfollow with heq | ⟨_, _, heq, hplace⟩
    · simp at heq
    · obtain ⟨rfl, rfl⟩ := Target.free.inj heq
      exact hplace

theorem Opens.below_of_extends {place : List String} (hopens : fs.Opens path place)
    (h : ExtendsToName root path names) (hroot : fs.LeadsTo root top) : top <+: place := by
  rw [hopens.eq_of_extends h hroot]
  exact List.prefix_append top names

/-- A file that can be written once directories were added, and was there before, was there by the
    same path. -/
theorem isThere_of_opens {place : List String} {bytes : ByteArray}
    (h : ExtendsToName root path names) (hroot : s.LeadsTo root top)
    (hadds : AddsDirectories top s t) (hopens : t.Opens path place)
    (hfile : s.lookup place = some (.file bytes)) : s.isThere path = true := by
  have hlater := hadds.file_iff.2 hfile
  cases hopens with
  | free hresolve =>
    have hfree := (isFree_of_resolvePieces hresolve).2
    simp [hfree.lookup_place] at hlater
  | file hresolve _ =>
    have hroot' := hroot.of_growsBelow hadds.growsBelow
    obtain ⟨haccepts, hfollow⟩ := (resolve_eq_ok_iff_of_extends h hroot').1 hresolve
    have hnames : ".." ∉ names := fun hmem => (h.isName _ hmem).isStep.2 rfl
    have hthere : s.lookup place ≠ none := by simp [hfile]
    have hfollow' := follow_found_of_grown hadds.growsBelow hnames hfollow hthere
    exact isThere_iff.2
      ⟨place, (resolve_eq_ok_iff_of_extends h hroot).2 ⟨haccepts, hfollow'⟩, hthere⟩

end FileSystem

end Scaffold
