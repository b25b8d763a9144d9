import Scaffold.Proofs.FileSystem.Parents

set_option autoImplicit false

/-! # Making lineages

What happens where a directory and its ancestors are made once more. If they could be made they are
there, and nothing happens. If they could not, something stood in the way that does not go away,
and all that could be made was made; so it fails again and nothing happens either
(`exists_makeLineage_error`). -/

namespace Scaffold

namespace FileSystem

variable {fs s t : FileSystem} {top : List String}

theorem start_eq_start {path other : String}
    (h : Path.isAbsolute other.toList = Path.isAbsolute path.toList) (fs : FileSystem) :
    fs.start other = fs.start path := by
  simp only [start, h]

theorem follow_start_moves {path : String} (hproper : IsProper path)
    (hstart : fs.lookup (fs.start path) = some .directory) :
    fs.follow (fs.start path) (moves (pieces path)) = fs.follow (fs.start path) (pieces path) := by
  rcases hproper with hlast | hnil
  · exact follow_moves hlast _
  · rw [hnil, follow_of_moves_eq_nil hstart hnil]
    rfl

/-- What is free at the end of a path text is no dot. -/
theorem IsFree.isProper {path : String} {directory : List String} {name : String}
    (h : fs.IsFree (fs.start path) (pieces path) directory name) : IsProper path := by
  obtain ⟨before, hbefore, -⟩ := h.exists_eq
  left
  rw [hbefore, List.getLast?_concat]
  exact fun hdot => h.isStep.1 (Option.some.inj hdot)

/-! ## What stands in the way -/

theorem makeDirectory_of_not_accepts {path : String} (h : ¬ Accepts path) (hpath : path ≠ "") :
    ∃ cause, cause ≠ .system .notFound ∧
      ∀ fs : FileSystem, fs.makeDirectory path = (.error cause, fs) := by
  obtain ⟨cause, hcause, hresolve⟩ := exists_resolvePieces_of_not_accepts h
  refine ⟨cause, hcause hpath, fun fs => ?_⟩
  unfold makeDirectory
  rw [hresolve]

/-- What stands in the way of a directory stays there. -/
theorem isDirectory_of_stuck (hgrows : GrowsBelow top s t) {path : String} {cause : Cause}
    (hstart : s.lookup (s.start path) ≠ none)
    (hmake : s.makeDirectory path = (.error cause, s)) (hcause : cause ≠ .system .notFound)
    (hdirectory : s.isDirectory path = false) : t.isDirectory path = false := by
  rw [← Bool.not_eq_true] at hdirectory ⊢
  intro ht
  obtain ⟨haccepts, place, hplace, hthere⟩ := isDirectory_iff.1 ht
  have hresolve := resolvePieces_of_makeDirectory hgrows hmake hcause
  rw [resolvePieces_eq_ok_iff.2 ⟨haccepts, hplace⟩] at hresolve
  have hfollow := (resolvePieces_eq_ok_iff.1 hresolve.symm).2
  have hplace' := lookup_ne_none_of_follow hstart hfollow
  exact hdirectory (isDirectory_iff.2
    ⟨haccepts, place, hfollow, hgrows.lookup_of_directory hplace' hthere⟩)

theorem makeLineage_of_stuck (hgrows : GrowsBelow top s t) {path : String} {cause : Cause}
    (hpath : path ≠ "") (hstart : s.lookup (s.start path) ≠ none)
    (hmake : s.makeDirectory path = (.error cause, s)) (hcause : cause ≠ .system .notFound)
    (hdirectory : s.isDirectory path = false) (ancestors : List String) :
    t.makeLineage (path :: ancestors) = (.error cause, t) := by
  unfold makeLineage
  rw [if_neg hpath, makeDirectory_of_growsBelow hgrows hmake hcause]
  simp [hcause, isDirectory_of_stuck hgrows hstart hmake hcause hdirectory]

theorem makeLineage_of_not_accepts {path : String} (h : ¬ Accepts path) (hpath : path ≠ "") :
    ∃ cause, ∀ (fs : FileSystem) (ancestors : List String),
      fs.makeLineage (path :: ancestors) = (.error cause, fs) := by
  obtain ⟨cause, hcause, hmake⟩ := makeDirectory_of_not_accepts h hpath
  refine ⟨cause, fun fs ancestors => ?_⟩
  have hdirectory : fs.isDirectory path = false := by
    rw [← Bool.not_eq_true]
    exact fun hthere => h (isDirectory_iff.1 hthere).1
  unfold makeLineage
  rw [if_neg hpath, hmake]
  simp [hcause, hdirectory]

/-! ## From a path to its parent -/

section Parent

variable {path parent move : String}

/-- If the path leads anywhere, its parent is a directory. -/
theorem isDirectory_parent (hparent : IsParent path parent)
    (hmoves : moves (pieces path) = moves (pieces parent) ++ [move]) (haccepts : Accepts path)
    (hstart : fs.lookup (fs.start path) = some .directory) {target : Target}
    (h : fs.follow (fs.start path) (moves (pieces path)) = .ok target) (hempty : parent ≠ "") :
    fs.isDirectory parent = true := by
  rw [hmoves] at h
  obtain ⟨place, hplace, hdirectory, -⟩ := exists_found_of_follow_append h
  have hstarts := start_eq_start hparent.isAbsolute fs
  rw [← hstarts] at hstart hplace
  rw [follow_start_moves hparent.isProper hstart] at hplace
  exact isDirectory_iff.2 ⟨hparent.accepts haccepts hempty, place, hplace, hdirectory⟩

/-- If the path leads anywhere, its parent is there. -/
theorem makeLineage_of_follow (hparent : IsParent path parent)
    (hmoves : moves (pieces path) = moves (pieces parent) ++ [move]) (hproper : IsProper path)
    (haccepts : Accepts path) (hstart : fs.lookup (fs.start path) = some .directory)
    {target : Target} (h : fs.follow (fs.start path) (pieces path) = .ok target)
    (ancestors : List String) : fs.makeLineage (parent :: ancestors) = (.ok (), fs) := by
  by_cases hempty : parent = ""
  · unfold makeLineage
    rw [if_pos hempty]
  · rw [← follow_start_moves hproper hstart] at h
    exact makeLineage_of_isDirectory
      (isDirectory_parent hparent hmoves haccepts hstart h hempty) ancestors

theorem follow_of_parent (hparent : IsParent path parent)
    (hmoves : moves (pieces path) = moves (pieces parent) ++ [move]) (hproper : IsProper path)
    (hstart : fs.lookup (fs.start path) = some .directory) {place : List String}
    (hplace : fs.LeadsTo parent place) :
    fs.follow (fs.start path) (pieces path) = fs.follow place [move] := by
  have hstarts := start_eq_start hparent.isAbsolute fs
  have hmovesPlace := follow_moves_of_found hplace
  rw [hstarts] at hmovesPlace
  rw [← follow_start_moves hproper hstart, hmoves, follow_append_of_found hmovesPlace]

/-- If the parent is there, nothing is missing for the path. -/
theorem resolvePieces_ne_notFound (hparent : IsParent path parent)
    (hmoves : moves (pieces path) = moves (pieces parent) ++ [move]) (hproper : IsProper path)
    (hstart : fs.lookup (fs.start path) = some .directory) {place : List String}
    (hplace : fs.LeadsTo parent place) (hdirectory : fs.lookup place = some .directory) :
    fs.resolvePieces path (pieces path) ≠ .error (.system .notFound) := by
  by_cases haccepts : Accepts path
  · have hfollow := follow_of_parent hparent hmoves hproper hstart hplace
    rw [resolvePieces_of_accepts haccepts, hfollow]
    cases hmove : fs.follow place [move] with
    | error fault =>
      intro hfault
      have hnotFound := Cause.system.inj (Except.error.inj hfault)
      rw [hnotFound] at hmove
      exact follow_singleton_ne_notFound hdirectory move hmove
    | ok target => simp
  · have hpath : path ≠ "" := by
      rintro rfl
      simp [pieces_empty, moves] at hmoves
    obtain ⟨cause, hcause, hresolve⟩ := exists_resolvePieces_of_not_accepts haccepts
    rw [hresolve]
    exact fun h => hcause hpath (Except.error.inj h)

end Parent

/-- A lineage that could be made leads to a directory. -/
theorem exists_leadsTo_of_makeLineage {made : FileSystem} {path : String}
    {ancestors : List String} (h : fs.makeLineage (path :: ancestors) = (.ok (), made))
    (hstart : made.lookup (made.start path) = some .directory) :
    ∃ place, made.LeadsTo path place ∧ made.lookup place = some .directory := by
  by_cases hempty : path = ""
  · rw [hempty] at hstart ⊢
    refine ⟨_, ?_, hstart⟩
    unfold LeadsTo
    rw [pieces_empty]
    rfl
  · obtain ⟨-, place, hplace, hdirectory⟩ :=
      isDirectory_iff.1 (isDirectory_of_makeLineage h hempty)
    exact ⟨place, hplace, hdirectory⟩

/-! ## Making a lineage once more -/

/-- A path without moves leads to the directory it starts from, so making it only fails if the
    system does not accept its text. -/
theorem exists_makeLineage_error_of_no_moves {path : String} {ancestors : List String}
    (hnil : moves (pieces path) = []) (hstart : s.lookup (s.start path) = some .directory)
    {cause : Cause} {made : FileSystem}
    (hs : s.makeLineage (path :: ancestors) = (.error cause, made)) (t : FileSystem) :
    ∃ cause', t.makeLineage (path :: ancestors) = (.error cause', t) := by
  by_cases hpath : path = ""
  · unfold makeLineage at hs
    rw [if_pos hpath] at hs
    simp at hs
  by_cases haccepts : Accepts path
  · have hplace : s.LeadsTo path (s.start path) := follow_of_moves_eq_nil hstart hnil
    have hthere := isDirectory_iff.2 ⟨haccepts, _, hplace, hstart⟩
    rw [makeLineage_of_isDirectory hthere] at hs
    simp at hs
  · obtain ⟨cause', hcause'⟩ := makeLineage_of_not_accepts haccepts hpath
    exact ⟨cause', hcause' t _⟩

/-- How making a lineage fails: at its first path, at its ancestors, or at its first path after its
    ancestors were made. -/
theorem makeLineage_error_cases {path : String} {ancestors : List String} {cause : Cause}
    {made : FileSystem} (h : s.makeLineage (path :: ancestors) = (.error cause, made)) :
    path ≠ "" ∧
      ((s.makeDirectory path = (.error cause, s) ∧ cause ≠ .system .notFound ∧
          s.isDirectory path = false ∧ made = s) ∨
        s.makeLineage ancestors = (.error cause, made) ∨
        (s.makeLineage ancestors = (.ok (), made) ∧
          made.makeDirectory path = (.error cause, made) ∧ made.isDirectory path = false)) := by
  unfold makeLineage at h
  by_cases hpath : path = ""
  · rw [if_pos hpath] at h
    simp at h
  rw [if_neg hpath] at h
  refine ⟨hpath, ?_⟩
  rcases makeDirectory_cases s path with ⟨first, hmake⟩ | ⟨directory, name, -, hmake⟩
  · rw [hmake] at h
    dsimp only at h
    by_cases hfirst : first = .system .notFound
    · -- something was missing, so the ancestors were made
      right
      rw [if_pos hfirst] at h
      split at h
      · next other below hbelow => exact Or.inl (hbelow.trans h)
      · next below hbelow =>
        right
        rcases makeDirectory_cases below path with ⟨second, hagain⟩ | ⟨directory, name, -, hagain⟩
        · rw [hagain] at h
          dsimp only at h
          cases hdirectory : below.isDirectory path with
          | true => simp [hdirectory] at h
          | false =>
            rw [hdirectory, if_neg Bool.false_ne_true] at h
            obtain ⟨hcause, rfl⟩ := Prod.mk.inj h
            obtain rfl := Except.error.inj hcause
            exact ⟨hbelow, hagain, hdirectory⟩
        · rw [hagain] at h
          simp at h
    · left
      rw [if_neg hfirst] at h
      cases hdirectory : s.isDirectory path with
      | true => simp [hdirectory] at h
      | false =>
        rw [hdirectory, if_neg Bool.false_ne_true] at h
        obtain ⟨hcause, rfl⟩ := Prod.mk.inj h
        obtain rfl := Except.error.inj hcause
        exact ⟨hmake, hfirst, rfl, rfl⟩
  · rw [hmake] at h
    simp at h

/-- If the ancestors cannot be made, neither can the path. -/
theorem exists_makeLineage_of_parent_error {path parent move : String} {ancestors : List String}
    (hparent : IsParent path parent)
    (hmoves : moves (pieces path) = moves (pieces parent) ++ [move]) (hproper : IsProper path)
    (haccepts : Accepts path) (hstart : fs.lookup (fs.start path) = some .directory) {cause : Cause}
    (h : fs.makeLineage (parent :: ancestors) = (.error cause, fs)) :
    ∃ cause', fs.makeLineage (path :: parent :: ancestors) = (.error cause', fs) := by
  have hnowhere : ∀ target, fs.follow (fs.start path) (pieces path) ≠ .ok target := by
    intro target hfollow
    have hmade :=
      makeLineage_of_follow hparent hmoves hproper haccepts hstart hfollow ancestors
    rw [h] at hmade
    simp at hmade
  have hdirectory : fs.isDirectory path = false := by
    rw [← Bool.not_eq_true]
    intro hthere
    obtain ⟨-, place, hplace, -⟩ := isDirectory_iff.1 hthere
    exact hnowhere _ hplace
  rcases makeDirectory_cases fs path with ⟨first, hmake⟩ | ⟨directory, name, hfree, -⟩
  · unfold makeLineage
    rw [if_neg haccepts.2.1, hmake]
    dsimp only
    by_cases hfirst : first = .system .notFound
    · exact ⟨cause, by rw [if_pos hfirst, h]⟩
    · rw [if_neg hfirst, hdirectory]
      exact ⟨first, rfl⟩
  · exact absurd (resolvePieces_eq_ok_iff.1 hfree).2 (hnowhere _)

/-- The directory that a path starts from stays what it is. -/
theorem lookup_start_of_growsBelow (hgrows : GrowsBelow top s t) {path : String}
    (h : s.lookup (s.start path) = some .directory) :
    t.lookup (t.start path) = some .directory := by
  rw [start_congr hgrows.workDir]
  exact hgrows.directory _ h

/-- What could not be made cannot be made later, and nothing is left of it to make. -/
theorem exists_makeLineage_error {path : String} {ancestors : List String}
    (hlineage : IsLineage (path :: ancestors)) (hproper : IsProper path)
    (hstart : s.lookup (s.start path) = some .directory) {cause : Cause} {made : FileSystem}
    (hs : s.makeLineage (path :: ancestors) = (.error cause, made))
    (hgrows : GrowsBelow top made t) :
    ∃ cause', t.makeLineage (path :: ancestors) = (.error cause', t) := by
  generalize heq : path :: ancestors = lineage at hlineage
  induction hlineage generalizing path ancestors with
  | @last path' hnil =>
    obtain ⟨rfl, rfl⟩ := List.cons.inj heq
    exact exists_makeLineage_error_of_no_moves hnil hstart hs t
  | @cons path' parent above hparent hlineage ih =>
    obtain ⟨rfl, rfl⟩ := List.cons.inj heq
    rcases hparent.moves_eq with ⟨hnil, -⟩ | ⟨move, hmoves⟩
    · exact exists_makeLineage_error_of_no_moves hnil hstart hs t
    obtain ⟨hpath, hcases⟩ := makeLineage_error_cases hs
    by_cases haccepts : Accepts path
    swap
    · obtain ⟨cause', hcause'⟩ := makeLineage_of_not_accepts haccepts hpath
      exact ⟨cause', hcause' t _⟩
    have hmade : GrowsBelow [] s made := by
      have hadds : AddsDirectories [] s (s.makeLineage (path :: parent :: above)).2 :=
        addsDirectories_makeLineage _ s fun _ _ _ _ _ _ _ => List.nil_prefix
      rw [hs] at hadds
      exact hadds.growsBelow
    have hmadeStart := lookup_start_of_growsBelow hmade hstart
    have hlaterStart := lookup_start_of_growsBelow hgrows hmadeStart
    rcases hcases with ⟨hmake, hcause, hdirectory, rfl⟩ | habove | ⟨habove, hmake, hdirectory⟩
    · exact ⟨cause, makeLineage_of_stuck hgrows hpath (by simp [hstart]) hmake hcause hdirectory _⟩
    · -- the ancestors fail again, and they are what the path needs
      have hparentStart : s.lookup (s.start parent) = some .directory := by
        rwa [start_eq_start hparent.isAbsolute]
      obtain ⟨cause', hagain⟩ := ih hparent.isProper hparentStart habove rfl
      exact exists_makeLineage_of_parent_error hparent hmoves hproper haccepts hlaterStart hagain
    · -- nothing is missing once the ancestors are there
      have hparentStart : made.lookup (made.start parent) = some .directory := by
        rwa [start_eq_start hparent.isAbsolute]
      obtain ⟨place, hplace, hthere⟩ := exists_leadsTo_of_makeLineage habove hparentStart
      have hcause : cause ≠ .system .notFound := by
        rintro rfl
        exact resolvePieces_ne_notFound hparent hmoves hproper hmadeStart hplace hthere
          (resolvePieces_of_makeDirectory_notFound hmake)
      exact ⟨cause, makeLineage_of_stuck hgrows hpath (by simp [hmadeStart]) hmake hcause
        hdirectory _⟩

/-! ## Making directories -/

theorem makeDirectories_empty (fs : FileSystem) : fs.makeDirectories "" = (.ok (), fs) := by
  obtain ⟨ancestors, heq, -⟩ := isLineage_cons_ancestors ""
  unfold makeDirectories makeLineage
  rw [heq]
  rfl

theorem isDirectory_of_makeDirectories {path : String} {made : FileSystem} (hpath : path ≠ "")
    (h : fs.makeDirectories path = (.ok (), made)) : made.isDirectory path = true := by
  obtain ⟨ancestors, heq, -⟩ := isLineage_cons_ancestors path
  unfold makeDirectories at h
  rw [heq] at h
  exact isDirectory_of_makeLineage h hpath

theorem makeDirectories_of_isDirectory {path : String} (h : fs.isDirectory path = true) :
    fs.makeDirectories path = (.ok (), fs) := by
  obtain ⟨ancestors, heq, -⟩ := isLineage_cons_ancestors path
  unfold makeDirectories
  rw [heq]
  exact makeLineage_of_isDirectory h ancestors

end FileSystem

end Scaffold
