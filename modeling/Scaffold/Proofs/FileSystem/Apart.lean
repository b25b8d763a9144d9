import Scaffold.Proofs.FileSystem.Descending

set_option autoImplicit false

/-! # Roots that lie apart

Growth below one place does not show below a place that lies apart from it: every path text that
extends a root there by names leads where it led, and is read and listed as it was. -/

namespace Scaffold

namespace FileSystem

variable {fs s t : FileSystem} {root path : String} {top here names : List String}

/-- Neither of two places is the other one or stands above it. -/
structure LieApart (top here : List String) : Prop where
  not_below : ¬ top <+: here
  not_above : ¬ here <+: top

instance (top here : List String) : Decidable (LieApart top here) :=
  decidable_of_iff (¬ top <+: here ∧ ¬ here <+: top)
    ⟨fun ⟨hbelow, habove⟩ => ⟨hbelow, habove⟩, fun ⟨hbelow, habove⟩ => ⟨hbelow, habove⟩⟩

theorem LieApart.not_prefix_append (h : LieApart top here) (rest : List String) :
    ¬ top <+: here ++ rest := by
  intro hbelow
  rcases List.prefix_or_prefix_of_prefix hbelow (List.prefix_append here rest) with hon | hon
  · exact h.not_below hon
  · exact h.not_above hon

theorem lookup_of_lieApart (hapart : LieApart top here) (hgrows : GrowsBelow top s t)
    (rest : List String) : t.lookup (here ++ rest) = s.lookup (here ++ rest) :=
  hgrows.outside _ (hapart.not_prefix_append rest)

/-- The pieces behind the root, a dot for a slash at the end included. -/
theorem Extends.exists_strictPieces_eq (h : Extends root path names) :
    ∃ rest, strictPieces path = pieces root ++ rest ∧ ".." ∉ rest := by
  obtain ⟨rest, hrest, -, hup⟩ := h.descends.exists_strictPieces_eq
  exact ⟨rest, hrest, hup⟩

theorem Extends.follow_strictPieces (h : Extends root path names) (hroot : fs.LeadsTo root here)
    {rest : List String} (hrest : strictPieces path = pieces root ++ rest) :
    fs.follow (fs.start path) (strictPieces path) = fs.follow here rest := by
  rw [hrest, start_eq_start h.isAbsolute]
  exact follow_append_of_found hroot rest

/-- Where a path text leads to something, the root that it extends leads somewhere. -/
theorem Extends.exists_leadsTo (h : Extends root path names) {place : List String}
    (hresolve : fs.resolve path = .ok (.found place)) : ∃ here, fs.LeadsTo root here := by
  obtain ⟨rest, hrest, -⟩ := h.exists_strictPieces_eq
  have hfollow := (resolve_eq_ok_iff.1 hresolve).2
  rw [hrest, start_eq_start h.isAbsolute, follow_append] at hfollow
  split at hfollow
  · next here hhere => exact ⟨here, hhere⟩
  · split_ifs at hfollow
    simp at hfollow
  · simp at hfollow

/-- What a path text below a root leads to in the end it led to before, if that was there. -/
theorem Extends.resolve_found_of_grown (h : Extends root path names) (hroot : s.LeadsTo root here)
    (hgrows : GrowsBelow top s t) {place : List String}
    (ht : t.resolve path = .ok (.found place)) (hplace : s.lookup place ≠ none) :
    s.resolve path = .ok (.found place) := by
  obtain ⟨rest, hrest, hparent⟩ := h.exists_strictPieces_eq
  obtain ⟨haccepts, hfollow⟩ := resolve_eq_ok_iff.1 ht
  rw [h.follow_strictPieces (hroot.of_growsBelow hgrows) hrest] at hfollow
  rw [resolve_eq_ok_iff, h.follow_strictPieces hroot hrest]
  exact ⟨haccepts, follow_found_of_grown hgrows hparent hfollow hplace⟩

theorem resolve_of_lieApart (h : Extends root path names) (hroot : s.LeadsTo root here)
    (hapart : LieApart top here) (hgrows : GrowsBelow top s t) :
    t.resolve path = s.resolve path := by
  obtain ⟨rest, hrest, hparent⟩ := h.exists_strictPieces_eq
  unfold resolve
  by_cases haccepts : Accepts path
  · rw [resolvePieces_of_accepts haccepts, resolvePieces_of_accepts haccepts,
      h.follow_strictPieces hroot hrest,
      h.follow_strictPieces (hroot.of_growsBelow hgrows) hrest,
      follow_congr hparent (lookup_of_lieApart hapart hgrows)]
  · obtain ⟨cause, -, hcause⟩ := exists_resolvePieces_of_not_accepts haccepts
    rw [hcause, hcause]

theorem lookup_of_resolve_lieApart (h : Extends root path names) (hroot : s.LeadsTo root here)
    (hapart : LieApart top here) (hgrows : GrowsBelow top s t) {place : List String}
    (hresolve : s.resolve path = .ok (.found place)) (rest : List String) :
    t.lookup (place ++ rest) = s.lookup (place ++ rest) := by
  obtain ⟨behind, hbehind, hparent⟩ := h.exists_strictPieces_eq
  have hfollow := (resolve_eq_ok_iff.1 hresolve).2
  rw [h.follow_strictPieces hroot hbehind] at hfollow
  obtain ⟨below, rfl⟩ := below_of_follow hparent hfollow
  rw [List.append_assoc]
  exact lookup_of_lieApart hapart hgrows _

theorem entry?_of_lieApart (h : Extends root path names) (hroot : s.LeadsTo root here)
    (hapart : LieApart top here) (hgrows : GrowsBelow top s t) : t.entry? path = s.entry? path := by
  unfold entry?
  rw [resolve_of_lieApart h hroot hapart hgrows]
  split
  · next place hplace =>
    simpa using lookup_of_resolve_lieApart h hroot hapart hgrows hplace []
  · rfl

theorem read_of_lieApart (h : Extends root path names) (hroot : s.LeadsTo root here)
    (hapart : LieApart top here) (hgrows : GrowsBelow top s t) : t.read path = s.read path := by
  unfold read
  rw [resolve_of_lieApart h hroot hapart hgrows]
  cases hresolve : s.resolve path with
  | error cause => rfl
  | ok target =>
    cases target with
    | free directory name => rfl
    | found place =>
      have hplace := lookup_of_resolve_lieApart h hroot hapart hgrows hresolve []
      rw [List.append_nil] at hplace
      simp only [hplace]

theorem isFile_of_lieApart (h : Extends root path names) (hroot : s.LeadsTo root here)
    (hapart : LieApart top here) (hgrows : GrowsBelow top s t) : t.isFile path = s.isFile path := by
  unfold isFile
  rw [entry?_of_lieApart h hroot hapart hgrows]

theorem isDirectory_of_lieApart (h : Extends root path names) (hroot : s.LeadsTo root here)
    (hapart : LieApart top here) (hgrows : GrowsBelow top s t) :
    t.isDirectory path = s.isDirectory path := by
  unfold isDirectory
  rw [entry?_of_lieApart h hroot hapart hgrows]

theorem list_of_lieApart (h : Extends root path names) (hroot : s.LeadsTo root here)
    (hapart : LieApart top here) (hgrows : GrowsBelow top s t) : t.list path = s.list path :=
  list_congr (resolve_of_lieApart h hroot hapart hgrows) fun _ hplace rest =>
    kind?_congr (lookup_of_resolve_lieApart h hroot hapart hgrows hplace rest)

end FileSystem

end Scaffold
