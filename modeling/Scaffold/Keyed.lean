set_option autoImplicit false

/-! # Keyed lists

A keyed list holds one value for each of finitely many keys and remembers the order in which the
keys first came. The view is `get?`: `get?_update` says what an update does to it, and
`keys_update` what it does to the order. -/

namespace Scaffold

/-- Values under distinct keys, in the order in which the keys first came. -/
structure Keyed (κ α : Type) where
  entries : List (κ × α)
  nodup_keys : (entries.map Prod.fst).Nodup

namespace Keyed

variable {κ α : Type} [DecidableEq κ]

/-- The value under `k` in a list of entries; the first one counts. -/
def find (k : κ) : List (κ × α) → Option α
  | [] => none
  | (k', a) :: rest => if k' = k then some a else find k rest

/-- The entries with the value under `k` replaced by `f` of it; a new key goes to the end. -/
def put (k : κ) (f : Option α → α) : List (κ × α) → List (κ × α)
  | [] => [(k, f none)]
  | (k', a) :: rest => if k' = k then (k', f (some a)) :: rest else (k', a) :: put k f rest

theorem find_put (k k' : κ) (f : Option α → α) (entries : List (κ × α)) :
    find k' (put k f entries) = if k' = k then some (f (find k entries)) else find k' entries := by
  induction entries with
  | nil => by_cases h : k = k' <;> simp [find, put, h, eq_comm]
  | cons e rest ih =>
    obtain ⟨j, a⟩ := e
    by_cases hj : j = k
    · subst hj
      by_cases h : j = k'
      · simp [find, put, h]
      · have h' : ¬ k' = j := fun e => h e.symm
        simp [find, put, h, h']
    · by_cases h : k' = k
      · subst h
        simp [find, put, hj, ih]
      · by_cases hjk : j = k' <;> simp [find, put, hj, h, hjk, ih]

theorem map_fst_put (k : κ) (f : Option α → α) (entries : List (κ × α)) :
    (put k f entries).map Prod.fst =
      if k ∈ entries.map Prod.fst then entries.map Prod.fst else entries.map Prod.fst ++ [k] := by
  induction entries with
  | nil => simp [put]
  | cons e rest ih =>
    obtain ⟨j, a⟩ := e
    by_cases hj : j = k
    · simp [put, hj]
    · have hk : ¬ k = j := fun h => hj h.symm
      by_cases hm : k ∈ rest.map Prod.fst
      · simp only [put, hj, if_false, List.map_cons, ih, hm, if_true, List.mem_cons, or_true]
      · simp only [put, hj, if_false, List.map_cons, ih, hm, List.mem_cons, hk, or_self,
          List.cons_append]

theorem nodup_put (k : κ) (f : Option α → α) {entries : List (κ × α)}
    (h : (entries.map Prod.fst).Nodup) : ((put k f entries).map Prod.fst).Nodup := by
  rw [map_fst_put]
  split
  · exact h
  · next hk =>
    rw [List.nodup_append]
    refine ⟨h, by simp, ?_⟩
    intro a ha b hb
    rw [List.mem_singleton] at hb
    subst hb
    exact fun hab => hk (hab ▸ ha)

theorem find_eq_none_iff (k : κ) (entries : List (κ × α)) :
    find k entries = none ↔ k ∉ entries.map Prod.fst := by
  induction entries with
  | nil => simp [find]
  | cons e rest ih =>
    obtain ⟨j, a⟩ := e
    by_cases hj : j = k
    · simp [find, hj]
    · have hk : ¬ k = j := fun h => hj h.symm
      rw [find, if_neg hj, ih, List.map_cons, List.mem_cons, not_or]
      exact ⟨fun h => ⟨hk, h⟩, And.right⟩

theorem eq_of_find_eq {entries entries' : List (κ × α)}
    (hkeys : entries.map Prod.fst = entries'.map Prod.fst) (h : (entries.map Prod.fst).Nodup)
    (hfind : ∀ k, find k entries = find k entries') : entries = entries' := by
  induction entries generalizing entries' with
  | nil => exact (List.map_eq_nil_iff.1 hkeys.symm).symm
  | cons e rest ih =>
    obtain ⟨j, a⟩ := e
    cases entries' with
    | nil => simp at hkeys
    | cons e' rest' =>
      obtain ⟨j', a'⟩ := e'
      simp only [List.map_cons, List.cons.injEq] at hkeys
      obtain ⟨rfl, hkeys⟩ := hkeys
      rw [List.map_cons, List.nodup_cons] at h
      have ha : a = a' := by simpa [find] using hfind j
      have hrest : ∀ k, find k rest = find k rest' := by
        intro k
        by_cases hk : j = k
        · subst hk
          rw [(find_eq_none_iff j rest).2 h.1, (find_eq_none_iff j rest').2 (hkeys ▸ h.1)]
        · simpa [find, hk] using hfind k
      rw [ha, ih hkeys h.2 hrest]

/-- No keys. -/
def empty : Keyed κ α where
  entries := []
  nodup_keys := List.nodup_nil

/-- The value under `k`. -/
def get? (t : Keyed κ α) (k : κ) : Option α :=
  find k t.entries

/-- The keys, in the order in which they first came. -/
def keys (t : Keyed κ α) : List κ :=
  t.entries.map Prod.fst

/-- The number of keys. -/
def size (t : Keyed κ α) : Nat :=
  t.entries.length

/-- Replaces the value under `k` by `f` of it, or of `none` for a new key. -/
def update (t : Keyed κ α) (k : κ) (f : Option α → α) : Keyed κ α where
  entries := put k f t.entries
  nodup_keys := nodup_put k f t.nodup_keys

/-- Sets the value under `k`. -/
def insert (t : Keyed κ α) (k : κ) (a : α) : Keyed κ α :=
  t.update k fun _ => a

theorem get?_empty (k : κ) : (empty : Keyed κ α).get? k = none := rfl

theorem get?_update (t : Keyed κ α) (k k' : κ) (f : Option α → α) :
    (t.update k f).get? k' = if k' = k then some (f (t.get? k)) else t.get? k' :=
  find_put k k' f t.entries

theorem get?_insert (t : Keyed κ α) (k k' : κ) (a : α) :
    (t.insert k a).get? k' = if k' = k then some a else t.get? k' :=
  get?_update t k k' _

theorem keys_update (t : Keyed κ α) (k : κ) (f : Option α → α) :
    (t.update k f).keys = if k ∈ t.keys then t.keys else t.keys ++ [k] :=
  map_fst_put k f t.entries

theorem keys_insert (t : Keyed κ α) (k : κ) (a : α) :
    (t.insert k a).keys = if k ∈ t.keys then t.keys else t.keys ++ [k] :=
  keys_update t k _

/-- Keyed lists are the same if they give the same values to the same keys in the same order. -/
theorem ext_get? {s t : Keyed κ α} (hkeys : s.keys = t.keys)
    (hget : ∀ k, s.get? k = t.get? k) : s = t := by
  have hentries : s.entries = t.entries := eq_of_find_eq hkeys s.nodup_keys hget
  cases s
  cases t
  cases hentries
  rfl

/-- Each key with the value that `f` gives it. -/
def tabulate (keys : List κ) (h : keys.Nodup) (f : κ → α) : Keyed κ α where
  entries := keys.map fun k => (k, f k)
  nodup_keys := by
    rw [List.map_map]
    exact (List.map_id' keys).symm ▸ h

omit [DecidableEq κ] in
theorem keys_tabulate (keys : List κ) (h : keys.Nodup) (f : κ → α) :
    (tabulate keys h f).keys = keys := by
  rw [Keyed.keys, tabulate, List.map_map]
  exact List.map_id' keys

theorem get?_tabulate (keys : List κ) (h : keys.Nodup) (f : κ → α) (k : κ) :
    (tabulate keys h f).get? k = if k ∈ keys then some (f k) else none := by
  show find k (keys.map fun k => (k, f k)) = _
  clear h
  induction keys with
  | nil => rfl
  | cons first keys ih =>
    rw [List.map_cons, find]
    by_cases hfirst : first = k
    · simp [hfirst]
    · have hfirst' : ¬ k = first := fun h => hfirst h.symm
      simp only [if_neg hfirst, List.mem_cons, hfirst', false_or]
      exact ih

omit [DecidableEq κ] in
theorem size_eq_length_keys (t : Keyed κ α) : t.size = t.keys.length := by
  simp [size, keys]

instance [DecidableEq α] : DecidableEq (Keyed κ α) := fun s t =>
  if h : s.entries = t.entries then
    isTrue (by cases s; cases t; cases h; rfl)
  else isFalse fun e => h (e ▸ rfl)

end Keyed

end Scaffold
