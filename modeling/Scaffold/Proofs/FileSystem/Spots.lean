import Scaffold.Proofs.FileSystem.Apart

set_option autoImplicit false

/-! # Where a path text can lead

There are no links, so a path text can lead to one place only: the one that its pieces name, whatever
is there (`spot`). What a path is found at, free at or opened at is its spot, and where a text
extends a root by names, its spot stands below that of the root. So it can be told of roots that are
not there yet whether they lie apart. -/

namespace Scaffold

namespace FileSystem

variable {fs s t : FileSystem} {root path : String}

/-- Where pieces lead from a place, if they lead anywhere. -/
def walk : List String → List String → List String
  | here, [] => here
  | here, piece :: pieces =>
    if piece = "." then walk here pieces
    else if piece = ".." then walk here.dropLast pieces
    else walk (here ++ [piece]) pieces

/-- Where a path text leads, if it leads anywhere. -/
def spot (fs : FileSystem) (path : String) : List String :=
  walk (fs.start path) (pieces path)

/-- The place of what is found, or of what is free. -/
def Target.place : Target → List String
  | .found place => place
  | .free directory name => directory ++ [name]

/-! ## Pieces -/

theorem walk_append (here before after : List String) :
    walk here (before ++ after) = walk (walk here before) after := by
  fun_induction walk here before with
  | case1 here => rfl
  | case2 here rest ih => simpa [walk] using ih
  | case3 here rest hdot ih => simpa [walk] using ih
  | case4 here piece rest hdot hparent ih => simpa [walk, hdot, hparent] using ih

/-- Names lead to the place that they name. -/
theorem walk_names {names : List String} (h : ∀ name ∈ names, IsStep name) (here : List String) :
    walk here names = here ++ names := by
  induction names generalizing here with
  | nil => exact (List.append_nil here).symm
  | cons name names ih =>
    obtain ⟨hdot, hparent⟩ := h name List.mem_cons_self
    unfold walk
    rw [if_neg hdot, if_neg hparent, ih fun other hother => h other (List.mem_cons_of_mem _ hother),
      List.append_assoc]
    rfl

theorem eq_walk_of_follow {here pieces : List String} {target : Target}
    (h : fs.follow here pieces = .ok target) : target.place = walk here pieces := by
  fun_induction fs.follow here pieces with
  | case1 here =>
    cases h
    rfl
  | case4 here rest hhere ih => simpa [walk] using ih h
  | case5 here rest hhere hdot ih => simpa [walk] using ih h
  | case7 here name rest hhere hdot hparent hshort e hentry ih =>
    simpa [walk, hdot, hparent] using ih h
  | case8 here name rest hhere hdot hparent hshort hentry hrest =>
    rw [← Except.ok.inj h, List.isEmpty_iff.1 hrest]
    simp [walk, hdot, hparent, Target.place]
  | _ => simp at h

/-! ## Path texts -/

theorem spot_congr (h : t.workDir = s.workDir) (path : String) : t.spot path = s.spot path := by
  unfold spot
  rw [start_congr h]

theorem LeadsTo.eq_spot {place : List String} (h : fs.LeadsTo path place) : place = fs.spot path :=
  eq_walk_of_follow h

/-- A directory is a root at its spot. -/
theorem isRoot_of_isDirectory (h : fs.isDirectory path = true) : fs.IsRoot path (fs.spot path) := by
  obtain ⟨-, place, hplace, hdirectory⟩ := isDirectory_iff.1 h
  rw [← hplace.eq_spot]
  exact ⟨hplace, hdirectory⟩

theorem eq_spot_of_resolve {target : Target} (h : fs.resolve path = .ok target) :
    target.place = fs.spot path := by
  rw [eq_walk_of_follow (resolve_eq_ok_iff.1 h).2, spot]
  rcases strictPieces_eq path with heq | heq
  · rw [heq]
  · rw [heq, walk_append]
    rfl

theorem Opens.eq_spot {place : List String} (h : fs.Opens path place) : place = fs.spot path := by
  cases h with
  | file hresolve hfile => exact eq_spot_of_resolve hresolve
  | free hresolve => exact eq_spot_of_resolve hresolve

/-- A file that is there after another was written is that one, or it was there before. -/
theorem file_of_write {place : List String} {bytes content : ByteArray}
    (h : (fs.write path bytes).2.lookup place = some (.file content)) :
    (place = fs.spot path ∧ content = bytes) ∨ fs.lookup place = some (.file content) := by
  rcases write_cases fs path bytes with ⟨cause, hwrite⟩ | ⟨written, hopens, hwrite⟩
  · rw [hwrite] at h
    exact Or.inr h
  · rw [hwrite, (hopens.writes_put bytes).lookup] at h
    split_ifs at h with hplace
    · cases h
      exact Or.inl ⟨hplace.trans hopens.eq_spot, rfl⟩
    · exact Or.inr h

theorem Extends.spot_eq {names : List String} (h : Extends root path names) (fs : FileSystem) :
    fs.spot path = fs.spot root ++ names := by
  unfold spot
  rw [h.pieces_eq, start_eq_start h.isAbsolute, walk_append,
    walk_names fun name hname => (h.isName name hname).isStep]

end FileSystem

end Scaffold
