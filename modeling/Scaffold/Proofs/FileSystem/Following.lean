import Scaffold.Proofs.FileSystem.Lookup

set_option autoImplicit false

/-! # Following paths

Where the pieces of a path lead. A path is followed one part after the other (`follow_append`), and
dots before its last piece change nothing, so that only its *moves* count: the names and the parent
pieces (`follow_moves`). A path without parent pieces leads to a place below the one it starts from
and depends on nothing but what can be looked up there (`follow_congr`). -/

namespace Scaffold

namespace FileSystem

variable {fs : FileSystem}

/-- The place from which a path text is followed. -/
def start (fs : FileSystem) (path : String) : List String :=
  if Path.isAbsolute path.toList then [] else fs.workDir

/-- The pieces of a path without the dots. -/
def moves (pieces : List String) : List String :=
  pieces.filter (· ≠ ".")

/-- The pieces of a path text lead to the place. -/
def LeadsTo (fs : FileSystem) (path : String) (place : List String) : Prop :=
  fs.follow (fs.start path) (pieces path) = .ok (.found place)

/-- A name that can stand in a directory, as far as following paths is concerned. -/
def IsStep (name : String) : Prop :=
  name ≠ "." ∧ name ≠ ".."

/-! ## One piece -/

theorem follow_cons_of_lookup_none {here : List String} (h : fs.lookup here = none) (piece : String)
    (rest : List String) : fs.follow here (piece :: rest) = .error .notFound := by
  simp only [follow, h]

theorem follow_cons_of_lookup_file {here : List String} {bytes : ByteArray}
    (h : fs.lookup here = some (.file bytes)) (piece : String) (rest : List String) :
    fs.follow here (piece :: rest) = .error .notDirectory := by
  simp only [follow, h]

theorem follow_dot {here : List String} (h : fs.lookup here = some .directory)
    (rest : List String) : fs.follow here ("." :: rest) = fs.follow here rest := by
  simp only [follow, h, if_true]

theorem follow_parent {here : List String} (h : fs.lookup here = some .directory)
    (rest : List String) : fs.follow here (".." :: rest) = fs.follow here.dropLast rest := by
  have hne : ¬ ".." = "." := by decide
  simp only [follow, h, hne, if_true, if_false]

theorem follow_long {here : List String} (h : fs.lookup here = some .directory) {name : String}
    (hname : IsStep name) (hlong : nameLimit < name.utf8ByteSize) (rest : List String) :
    fs.follow here (name :: rest) = .error .nameTooLong := by
  simp only [follow, h, hname.1, hname.2, hlong, if_true, if_false]

/-- A name that is there is followed. -/
theorem follow_name {here : List String} (h : fs.lookup here = some .directory) {name : String}
    (hname : IsStep name) (hshort : ¬ nameLimit < name.utf8ByteSize)
    (hentry : fs.lookup (here ++ [name]) ≠ none) (rest : List String) :
    fs.follow here (name :: rest) = fs.follow (here ++ [name]) rest := by
  obtain ⟨e, hentry⟩ := Option.ne_none_iff_exists'.1 hentry
  simp only [follow, h, hname.1, hname.2, hshort, hentry, if_false]

/-- A name that is not there is free at the end of a path and a fault before it. -/
theorem follow_missing {here : List String} (h : fs.lookup here = some .directory) {name : String}
    (hname : IsStep name) (hshort : ¬ nameLimit < name.utf8ByteSize)
    (hmissing : fs.lookup (here ++ [name]) = none) (rest : List String) :
    fs.follow here (name :: rest) =
      if rest.isEmpty then .ok (.free here name) else .error .notFound := by
  simp only [follow, h, hname.1, hname.2, hshort, hmissing, if_false]

/-- What goes on from a place only goes on from a directory. -/
theorem lookup_of_follow_cons {here rest : List String} {piece : String} {target : Target}
    (h : fs.follow here (piece :: rest) = .ok target) : fs.lookup here = some .directory := by
  cases hhere : fs.lookup here with
  | none => simp [follow_cons_of_lookup_none hhere] at h
  | some e =>
    cases e with
    | file bytes => simp [follow_cons_of_lookup_file hhere] at h
    | directory => rfl

/-- Where one piece leads from a directory. -/
theorem follow_singleton {here : List String} (h : fs.lookup here = some .directory)
    (piece : String) :
    fs.follow here [piece] =
      if piece = "." then .ok (.found here)
      else if piece = ".." then .ok (.found here.dropLast)
      else if nameLimit < piece.utf8ByteSize then .error .nameTooLong
      else if fs.lookup (here ++ [piece]) = none then .ok (.free here piece)
      else .ok (.found (here ++ [piece])) := by
  by_cases hdot : piece = "."
  · rw [if_pos hdot, hdot, follow_dot h]
    rfl
  by_cases hparent : piece = ".."
  · rw [if_neg hdot, if_pos hparent, hparent, follow_parent h]
    rfl
  rw [if_neg hdot, if_neg hparent]
  by_cases hlong : nameLimit < piece.utf8ByteSize
  · rw [if_pos hlong, follow_long h ⟨hdot, hparent⟩ hlong]
  rw [if_neg hlong]
  by_cases hentry : fs.lookup (here ++ [piece]) = none
  · rw [if_pos hentry, follow_missing h ⟨hdot, hparent⟩ hlong hentry]
    rfl
  · rw [if_neg hentry, follow_name h ⟨hdot, hparent⟩ hlong hentry]
    rfl

/-- One piece leads somewhere or fails for good, if it is followed from a directory. -/
theorem follow_singleton_ne_notFound {here : List String} (h : fs.lookup here = some .directory)
    (piece : String) : fs.follow here [piece] ≠ .error .notFound := by
  rw [follow_singleton h]
  split_ifs <;> simp

/-! ## Parts of a path -/

/-- A path is followed one part after the other. -/
theorem follow_append (here before after : List String) :
    fs.follow here (before ++ after) =
      match fs.follow here before with
      | .ok (.found place) => fs.follow place after
      | .ok (.free directory name) =>
        if after.isEmpty then .ok (.free directory name) else .error .notFound
      | .error fault => .error fault := by
  fun_induction fs.follow here before with
  | case1 here => rfl
  | case2 here piece rest hhere => rw [List.cons_append, follow_cons_of_lookup_none hhere]
  | case3 here piece rest bytes hhere => rw [List.cons_append, follow_cons_of_lookup_file hhere]
  | case4 here rest hhere ih => rw [List.cons_append, follow_dot hhere, ih]
  | case5 here rest hhere hdot ih => rw [List.cons_append, follow_parent hhere, ih]
  | case6 here name rest hhere hdot hparent hlong =>
    rw [List.cons_append, follow_long hhere ⟨hdot, hparent⟩ hlong]
  | case7 here name rest hhere hdot hparent hshort e hentry ih =>
    rw [List.cons_append, follow_name hhere ⟨hdot, hparent⟩ hshort (by simp [hentry]), ih]
  | case8 here name rest hhere hdot hparent hshort hentry hrest =>
    rw [List.cons_append, follow_missing hhere ⟨hdot, hparent⟩ hshort hentry,
      List.isEmpty_iff.1 hrest, List.nil_append]
  | case9 here name rest hhere hdot hparent hshort hentry hrest =>
    rw [List.cons_append, follow_missing hhere ⟨hdot, hparent⟩ hshort hentry]
    cases rest with
    | nil => exact absurd rfl hrest
    | cons _ _ => rfl

theorem follow_append_of_found {here before place : List String}
    (h : fs.follow here before = .ok (.found place)) (after : List String) :
    fs.follow here (before ++ after) = fs.follow place after := by
  rw [follow_append, h]

/-- What goes on after a part of a path goes on from a directory that the part leads to. -/
theorem exists_found_of_follow_append {here before : List String} {piece : String} {target : Target}
    (h : fs.follow here (before ++ [piece]) = .ok target) :
    ∃ place, fs.follow here before = .ok (.found place) ∧ fs.lookup place = some .directory ∧
      fs.follow place [piece] = .ok target := by
  rw [follow_append] at h
  split at h
  · next place hplace => exact ⟨place, hplace, lookup_of_follow_cons h, h⟩
  · simp at h
  · simp at h

/-- Dots before the last piece change nothing. -/
theorem follow_moves {pieces : List String} (hlast : pieces.getLast? ≠ some ".")
    (here : List String) : fs.follow here (moves pieces) = fs.follow here pieces := by
  induction pieces generalizing here with
  | nil => rfl
  | cons piece rest ih =>
    have hrest : rest.getLast? ≠ some "." := by
      cases rest with
      | nil => simp
      | cons second rest => simpa using hlast
    have hempty : (moves rest).isEmpty = rest.isEmpty := by
      rcases List.eq_nil_or_concat rest with rfl | ⟨before, last, rfl⟩
      · rfl
      · have hne : last ≠ "." := by simpa using hrest
        rw [Bool.eq_iff_iff]
        simp [moves, hne]
    by_cases hdot : piece = "."
    · subst hdot
      have hmoves : moves ("." :: rest) = moves rest := by simp [moves]
      rw [hmoves, ih hrest]
      -- something follows the dot, and it fails wherever the dot does
      obtain ⟨second, rest, rfl⟩ := List.exists_cons_of_ne_nil (l := rest) (by
        rintro rfl
        exact hlast rfl)
      cases hhere : fs.lookup here with
      | none => rw [follow_cons_of_lookup_none hhere, follow_cons_of_lookup_none hhere]
      | some e =>
        cases e with
        | file bytes => rw [follow_cons_of_lookup_file hhere, follow_cons_of_lookup_file hhere]
        | directory => rw [follow_dot hhere]
    · have hmoves : moves (piece :: rest) = piece :: moves rest := by simp [moves, hdot]
      rw [hmoves, follow, follow]
      simp only [hdot, if_false, ih hrest, hempty]

/-- A path that leads somewhere leads there without its dots as well. -/
theorem follow_moves_of_found {here pieces place : List String}
    (h : fs.follow here pieces = .ok (.found place)) :
    fs.follow here (moves pieces) = .ok (.found place) := by
  fun_induction fs.follow here pieces with
  | case1 here => exact h
  | case4 here rest hhere ih =>
    have hmoves : moves ("." :: rest) = moves rest := by simp [moves]
    rw [hmoves]
    exact ih h
  | case5 here rest hhere hdot ih =>
    have hmoves : moves (".." :: rest) = ".." :: moves rest := by simp [moves]
    rw [hmoves, follow_parent hhere]
    exact ih h
  | case7 here name rest hhere hdot hparent hshort e hentry ih =>
    have hmoves : moves (name :: rest) = name :: moves rest := by simp [moves, hdot]
    rw [hmoves, follow_name hhere ⟨hdot, hparent⟩ hshort (by simp [hentry])]
    exact ih h
  | _ => simp at h

/-- A path of dots stays where it is. -/
theorem follow_of_moves_eq_nil {pieces here : List String}
    (hhere : fs.lookup here = some .directory) (h : moves pieces = []) :
    fs.follow here pieces = .ok (.found here) := by
  induction pieces with
  | nil => rfl
  | cons piece rest ih =>
    by_cases hdot : piece = "."
    · rw [hdot, follow_dot hhere]
      exact ih (by simpa [moves, hdot] using h)
    · simp [moves, hdot] at h

/-! ## What is reached -/

/-- A path to a directory is followed from a directory. -/
theorem lookup_of_follow {here place pieces : List String}
    (h : fs.follow here pieces = .ok (.found place)) (hplace : fs.lookup place = some .directory) :
    fs.lookup here = some .directory := by
  cases pieces with
  | nil =>
    cases h
    exact hplace
  | cons piece rest => exact lookup_of_follow_cons h

/-- A path from something leads to something. -/
theorem lookup_ne_none_of_follow {here place pieces : List String}
    (hhere : fs.lookup here ≠ none) (h : fs.follow here pieces = .ok (.found place)) :
    fs.lookup place ≠ none := by
  fun_induction fs.follow here pieces with
  | case1 here =>
    cases h
    exact hhere
  | case4 here rest hdirectory ih => exact ih hhere h
  | case5 here rest hdirectory hdot ih => exact ih (by simp [lookup_dropLast hdirectory]) h
  | case7 here name rest hdirectory hdot hparent hshort e hentry ih =>
    exact ih (by simp [hentry]) h
  | _ => simp at h

/-- What is known of a free name: the pieces before it lead to its directory, where it is not. -/
structure IsFree (fs : FileSystem) (here pieces directory : List String) (name : String) :
    Prop where
  isStep : IsStep name
  short : ¬ nameLimit < name.utf8ByteSize
  lookup_directory : fs.lookup directory = some .directory
  lookup_place : fs.lookup (directory ++ [name]) = none
  exists_eq : ∃ before, pieces = before ++ [name] ∧ fs.follow here before = .ok (.found directory)

theorem isFree_of_follow {here directory pieces : List String} {name : String}
    (h : fs.follow here pieces = .ok (.free directory name)) :
    fs.IsFree here pieces directory name := by
  have hne : pieces ≠ [] := by
    rintro rfl
    simp [follow] at h
  obtain ⟨before, piece, rfl⟩ := List.eq_nil_or_concat pieces |>.resolve_left hne
  rw [List.concat_eq_append] at h ⊢
  obtain ⟨place, hplace, hdirectory, h⟩ := exists_found_of_follow_append h
  rw [follow_singleton hdirectory] at h
  split_ifs at h with hdot hparent hlong hentry <;>
    simp only [Except.ok.injEq, reduceCtorEq, Target.free.injEq] at h
  obtain ⟨rfl, rfl⟩ := h
  exact ⟨⟨hdot, hparent⟩, hlong, hdirectory, hentry, before, rfl, hplace⟩

/-! ## Paths without parent pieces -/

theorem below_of_follow {here place pieces : List String} (hpieces : ".." ∉ pieces)
    (h : fs.follow here pieces = .ok (.found place)) : here <+: place := by
  fun_induction fs.follow here pieces with
  | case1 here =>
    cases h
    exact List.prefix_rfl
  | case4 here rest hhere ih => exact ih (fun hmem => hpieces (List.mem_cons_of_mem _ hmem)) h
  | case5 here rest hhere hdot ih => exact absurd List.mem_cons_self hpieces
  | case7 here name rest hhere hdot hparent hshort e hentry ih =>
    have hbelow := ih (fun hmem => hpieces (List.mem_cons_of_mem _ hmem)) h
    exact (List.prefix_append here [name]).trans hbelow
  | _ => simp at h

/-- Only what is below the start counts for a path without parent pieces. -/
theorem follow_congr {s t : FileSystem} {here pieces : List String} (hpieces : ".." ∉ pieces)
    (h : ∀ rest, t.lookup (here ++ rest) = s.lookup (here ++ rest)) :
    t.follow here pieces = s.follow here pieces := by
  induction pieces generalizing here with
  | nil => rfl
  | cons piece rest ih =>
    have hhere : t.lookup here = s.lookup here := by simpa using h []
    have hrest : ".." ∉ rest := fun hmem => hpieces (List.mem_cons_of_mem _ hmem)
    have hparent : ¬ piece = ".." := by
      rintro rfl
      exact hpieces List.mem_cons_self
    have hnext : t.follow (here ++ [piece]) rest = s.follow (here ++ [piece]) rest := by
      refine ih hrest fun below => ?_
      rw [List.append_assoc]
      exact h _
    simp only [follow, hhere, hparent, h [piece], hnext, ih hrest h, if_false]

/-- Names lead to the place that they name. -/
theorem eq_of_follow_names {here names : List String} (hnames : ∀ name ∈ names, IsStep name)
    {target : Target} (h : fs.follow here names = .ok target) :
    target = .found (here ++ names) ∨
      ∃ directory name, target = .free directory name ∧ directory ++ [name] = here ++ names := by
  induction names generalizing here with
  | nil =>
    left
    rw [List.append_nil]
    exact (Except.ok.inj h).symm
  | cons name rest ih =>
    have hname := hnames name List.mem_cons_self
    have hrest : ∀ name ∈ rest, IsStep name := fun name hmem =>
      hnames name (List.mem_cons_of_mem _ hmem)
    have hhere := lookup_of_follow_cons h
    by_cases hlong : nameLimit < name.utf8ByteSize
    · simp [follow_long hhere hname hlong] at h
    by_cases hentry : fs.lookup (here ++ [name]) = none
    · rw [follow_missing hhere hname hlong hentry] at h
      cases rest with
      | nil => exact Or.inr ⟨here, name, (Except.ok.inj h).symm, rfl⟩
      | cons _ _ => simp at h
    · rw [follow_name hhere hname hlong hentry] at h
      simpa using ih hrest h

end FileSystem

end Scaffold
