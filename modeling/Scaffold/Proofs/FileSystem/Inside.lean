import Scaffold.Proofs.FileSystem.Spots

set_option autoImplicit false

/-! # Path texts that stay inside

A path text may pass places outside a directory, as long as there are directories: nothing is made
there. If it *stays inside* in this sense and ends in the directory, then whatever is made or opened
by it is below the directory, whether pieces lead up on the way or not. Texts that descend from the
directory are of that kind. -/

namespace Scaffold

namespace FileSystem

variable {fs s : FileSystem} {root path : String} {top : List String}

/-- Each place that the path text passes is below the place `top` or a directory, and the place that
    it leads to is below `top`. -/
structure StaysInside (fs : FileSystem) (top : List String) (path : String) : Prop where
  way : ∀ before, before <+: moves (pieces path) →
    top <+: walk (fs.start path) before ∨ fs.lookup (walk (fs.start path) before) = some .directory
  inside : top <+: fs.spot path

/-- Dots say nothing about where a path leads. -/
theorem walk_moves (here pieces : List String) : walk here (moves pieces) = walk here pieces := by
  fun_induction walk here pieces with
  | case1 here => rfl
  | case2 here rest ih =>
    have hmoves : moves ("." :: rest) = moves rest := by simp [moves]
    rw [hmoves, ih]
  | case3 here rest hdot ih =>
    have hmoves : moves (".." :: rest) = ".." :: moves rest := by simp [moves]
    rw [hmoves, walk, if_neg hdot, if_pos rfl, ih]
  | case4 here piece rest hdot hparent ih =>
    have hmoves : moves (piece :: rest) = piece :: moves rest := by simp [moves, hdot]
    rw [hmoves, walk, if_neg hdot, if_neg hparent, ih]

/-- Without parent pieces nothing leads up. -/
theorem prefix_walk {pieces : List String} (h : ".." ∉ pieces) (here : List String) :
    here <+: walk here pieces := by
  fun_induction walk here pieces with
  | case1 here => exact List.prefix_rfl
  | case2 here rest ih => exact ih fun hmem => h (List.mem_cons_of_mem _ hmem)
  | case3 here rest hdot ih => exact absurd List.mem_cons_self h
  | case4 here piece rest hdot hparent ih =>
    have hrest := ih fun hmem => h (List.mem_cons_of_mem _ hmem)
    exact (List.prefix_append here [piece]).trans hrest

/-! ## Which path texts stay inside -/

/-- Path texts stay inside while directories and files are added. -/
theorem StaysInside.of_growsBelow (h : s.StaysInside top path) {place : List String}
    (hgrows : GrowsBelow place s fs) : fs.StaysInside top path := by
  constructor
  · intro before hbefore
    rw [start_congr hgrows.workDir]
    exact (h.way before hbefore).imp_right (hgrows.directory _)
  · rw [spot_congr hgrows.workDir]
    exact h.inside

theorem StaysInside.join_name (h : fs.StaysInside top path) {name : String} (hname : IsName name) :
    fs.StaysInside top (Path.join path name) := by
  have habsolute := isAbsolute_of_isName hname
  have hstart := start_eq_start (isAbsolute_join path habsolute) fs
  have hpieces : pieces (Path.join path name) = pieces path ++ [name] := by
    rw [pieces_join path habsolute, pieces_of_isName hname]
  have hinside : top <+: fs.spot (Path.join path name) := by
    unfold spot
    rw [hstart, hpieces, walk_append]
    exact h.inside.trans (prefix_walk (by simpa using hname.isStep.2.symm) _)
  refine ⟨fun before hbefore => ?_, hinside⟩
  have hmoves : moves (pieces (Path.join path name)) = moves (pieces path) ++ [name] := by
    rw [hpieces, moves_append_names _ (by simpa using hname.isStep)]
  rw [hmoves] at hbefore
  rw [hstart]
  rcases List.prefix_concat_iff.1 hbefore with rfl | hbefore
  · rw [← hmoves, walk_moves, ← hstart]
    exact Or.inl hinside
  · exact h.way before hbefore

theorem StaysInside.join_empty (h : fs.StaysInside top path) :
    fs.StaysInside top (Path.join path "") := by
  have hempty : Path.isAbsolute "".toList = false := by decide
  have hstart := start_eq_start (isAbsolute_join path hempty) fs
  have hpieces : pieces (Path.join path "") = pieces path := by
    rw [pieces_join path hempty, pieces_empty, List.append_nil]
  constructor
  · rw [hstart, hpieces]
    exact h.way
  · unfold spot
    rw [hstart, hpieces]
    exact h.inside

/-- On the way to a directory there are directories. -/
theorem lookup_walk_of_leadsTo (h : fs.LeadsTo path top) (htop : fs.lookup top = some .directory)
    {before : List String} (hbefore : before <+: moves (pieces path)) :
    fs.lookup (walk (fs.start path) before) = some .directory := by
  obtain ⟨after, hafter⟩ := hbefore
  have hfollow := follow_moves_of_found h
  rw [← hafter, follow_append] at hfollow
  split at hfollow
  · next place hplace =>
    have hspot : place = walk (fs.start path) before := eq_walk_of_follow hplace
    rw [← hspot]
    exact lookup_of_follow hfollow htop
  · split_ifs at hfollow
    simp at hfollow
  · simp at hfollow

/-- What descends from a directory stays inside it. -/
theorem Descends.staysInside {rest : List String} (h : Descends root path rest)
    (hroot : fs.IsRoot root top) : fs.StaysInside top path := by
  have htop : walk (fs.start root) (pieces root) = top := hroot.leadsTo.eq_spot.symm
  have hstart := start_eq_start h.isAbsolute fs
  constructor
  · intro before hbefore
    have hmoves : moves (pieces path) = moves (pieces root) ++ moves rest := by
      rw [h.pieces_eq, moves, List.filter_append]
      rfl
    rw [hmoves] at hbefore
    rw [hstart]
    rcases List.prefix_or_prefix_of_prefix hbefore (List.prefix_append _ _) with hon | hbehind
    · exact Or.inr (lookup_walk_of_leadsTo hroot.leadsTo hroot.directory hon)
    · left
      obtain ⟨behind, rfl⟩ := hbehind
      rw [List.prefix_append_right_inj] at hbefore
      rw [walk_append, walk_moves, htop]
      exact prefix_walk (fun hmem => (h.isStep_of_mem_moves _ (hbefore.subset hmem)).2 rfl) top
  · unfold spot
    rw [hstart, h.pieces_eq, walk_append, htop]
    exact prefix_walk h.up_not_mem top

/-! ## What is made and opened -/

/-- Where directories are missing on the way of the path text, they are made inside. -/
theorem StaysInside.addsDirectories (h : s.StaysInside top path) {above : String}
    (habove : Path.isAbsolute above.toList = Path.isAbsolute path.toList ∧
      moves (pieces above) <+: moves (pieces path)) :
    AddsDirectories top s (s.makeDirectories above).2 := by
  refine addsDirectories_makeLineage _ s fun between other directory name hother hbetween hfree => ?_
  obtain ⟨ancestors, heq, hlineage⟩ := isLineage_cons_ancestors above
  rw [heq] at hother
  obtain ⟨habsolute, hmoves⟩ := hlineage.begins_of_mem hother
  -- what is free on the way has not been a directory, so it is inside
  obtain ⟨-, hfollow⟩ := resolvePieces_eq_ok_iff.1 hfree
  have hplace : directory ++ [name] = walk (s.start path) (moves (pieces other)) := by
    rw [walk_moves, ← start_eq_start (habsolute.trans habove.1), ← start_congr hbetween.workDir]
    exact eq_walk_of_follow hfollow
  have hmissing := (isFree_of_follow hfollow).lookup_place
  rw [hplace] at hmissing ⊢
  refine (h.way _ (hmoves.trans habove.2)).resolve_right fun hdirectory => ?_
  rw [hbetween.growsBelow.directory _ hdirectory] at hmissing
  simp at hmissing

theorem StaysInside.addsDirectories_makeDirectories (h : s.StaysInside top path) :
    AddsDirectories top s (s.makeDirectories path).2 :=
  h.addsDirectories ⟨rfl, List.prefix_rfl⟩

theorem StaysInside.addsDirectories_makeParent (h : s.StaysInside top path) :
    AddsDirectories top s (s.makeParent path).2 := by
  unfold makeParent
  split
  · next parent hparent =>
    have hparent := isParent_of_parent? hparent
    exact h.addsDirectories ⟨hparent.isAbsolute, hparent.moves_begin⟩
  · exact .refl top s

theorem Opens.below_of_staysInside {place : List String} (hopens : fs.Opens path place)
    (h : fs.StaysInside top path) : top <+: place := by
  rw [hopens.eq_spot]
  exact h.inside

end FileSystem

end Scaffold
