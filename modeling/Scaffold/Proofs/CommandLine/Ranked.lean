import Mathlib.Data.List.Infix
import Scaffold.CommandLine.Ranked

set_option autoImplicit false

/-! # The longest beginning

Ranked texts are tried in their order, and the first one that a text begins with is taken. Since
longer ones stand first, that is the longest one, and a text has only one longest beginning
(`dropFirst?_eq_some_iff`). Adding a text keeps the ranking. -/

namespace Scaffold

namespace Text

theorem dropPrefix?_eq_some_iff {start cs rest : List Char} :
    dropPrefix? start cs = some rest ↔ cs = start ++ rest := by
  induction start generalizing cs with
  | nil => simp [dropPrefix?]
  | cons p start ih =>
    cases cs with
    | nil => simp [dropPrefix?]
    | cons c cs =>
      by_cases hc : p = c
      · simp [dropPrefix?, hc, ih]
      · have hc' : ¬ c = p := fun h => hc h.symm
        simp [dropPrefix?, hc, hc']

theorem dropPrefix?_eq_none_iff {start cs : List Char} :
    dropPrefix? start cs = none ↔ ¬ start <+: cs := by
  rw [Option.eq_none_iff_forall_ne_some]
  constructor
  · rintro h ⟨rest, hrest⟩
    exact h rest (dropPrefix?_eq_some_iff.2 hrest.symm)
  · intro h rest hrest
    exact h ⟨rest, (dropPrefix?_eq_some_iff.1 hrest).symm⟩

end Text

namespace Ranked

/-- Longer texts stand before shorter ones. -/
def IsRanked (texts : List String) : Prop :=
  texts.Pairwise fun before after => after.utf8ByteSize ≤ before.utf8ByteSize

/-- Of the texts that `text` begins with, `t` is the longest. -/
structure IsLongest (texts : List String) (text : List Char) (t : String) : Prop where
  mem : t ∈ texts
  begins : t.toList <+: text
  longest : ∀ other ∈ texts, other.toList <+: text → other.utf8ByteSize ≤ t.utf8ByteSize

variable {texts : List String} {text rest : List Char} {t : String}

/-! ## Finding -/

/-- Two beginnings of a text with the same number of bytes are the same. -/
theorem eq_of_begins {s t : String} (hs : s.toList <+: text) (ht : t.toList <+: text)
    (hsize : s.utf8ByteSize = t.utf8ByteSize) : s = t := by
  -- the longer one is the shorter one and something without bytes
  have hshort : ∀ {a b : String}, a.toList <+: b.toList → a.utf8ByteSize = b.utf8ByteSize →
      a = b := by
    intro a b ⟨more, hmore⟩ hab
    have hb : b = a ++ String.ofList more := by
      rw [← String.toList_inj, String.toList_append, String.toList_ofList, hmore]
    have hnothing : (String.ofList more).utf8ByteSize = 0 := by
      rw [hb, String.utf8ByteSize_append] at hab
      omega
    rw [hb, String.utf8ByteSize_eq_zero_iff.1 hnothing, String.append_empty]
  rcases List.prefix_or_prefix_of_prefix hs ht with h | h
  · exact hshort h hsize
  · exact (hshort h hsize.symm).symm

theorem IsLongest.unique {s : String} (hs : IsLongest texts text s)
    (ht : IsLongest texts text t) : s = t :=
  eq_of_begins hs.begins ht.begins
    (le_antisymm (ht.longest s hs.mem hs.begins) (hs.longest t ht.mem ht.begins))

theorem dropFirst?_eq_none_iff :
    dropFirst? texts text = none ↔ ∀ t ∈ texts, ¬ t.toList <+: text := by
  unfold dropFirst?
  simp [List.findSome?_eq_none_iff, Text.dropPrefix?_eq_none_iff]

theorem isLongest_of_dropFirst? (h : IsRanked texts)
    (hfirst : dropFirst? texts text = some (t, rest)) :
    IsLongest texts text t ∧ text = t.toList ++ rest := by
  unfold dropFirst? at hfirst
  induction texts with
  | nil => simp at hfirst
  | cons first texts ih =>
    obtain ⟨hshorter, hranked⟩ := List.pairwise_cons.1 h
    rw [List.findSome?_cons] at hfirst
    cases hdrop : Text.dropPrefix? first.toList text with
    | some behind =>
      rw [hdrop] at hfirst
      simp only [Option.map_some, Option.some.injEq, Prod.mk.injEq] at hfirst
      obtain ⟨rfl, rfl⟩ := hfirst
      have htext := Text.dropPrefix?_eq_some_iff.1 hdrop
      refine ⟨⟨List.mem_cons_self, ⟨behind, htext.symm⟩, ?_⟩, htext⟩
      intro other hother _
      rcases List.mem_cons.1 hother with rfl | hother
      · exact le_rfl
      · exact hshorter other hother
    | none =>
      rw [hdrop] at hfirst
      obtain ⟨⟨hmem, hbegins, hlongest⟩, htext⟩ := ih hranked hfirst
      refine ⟨⟨List.mem_cons_of_mem first hmem, hbegins, ?_⟩, htext⟩
      intro other hother hon
      rcases List.mem_cons.1 hother with rfl | hother
      · exact absurd hon (Text.dropPrefix?_eq_none_iff.1 hdrop)
      · exact hlongest other hother hon

/-- What is found is the one longest beginning. -/
theorem dropFirst?_eq_some_iff (h : IsRanked texts) :
    dropFirst? texts text = some (t, rest) ↔
      IsLongest texts text t ∧ text = t.toList ++ rest := by
  constructor
  · exact isLongest_of_dropFirst? h
  · rintro ⟨hlongest, htext⟩
    cases hfirst : dropFirst? texts text with
    | none => exact absurd hlongest.begins (dropFirst?_eq_none_iff.1 hfirst t hlongest.mem)
    | some found =>
      obtain ⟨s, behind⟩ := found
      obtain ⟨hs, hbehind⟩ := isLongest_of_dropFirst? h hfirst
      obtain rfl := hs.unique hlongest
      rw [htext] at hbehind
      rw [List.append_cancel_left hbehind]

/-! ## Adding -/

theorem mem_place {s : String} : s ∈ place t texts ↔ s = t ∨ s ∈ texts := by
  induction texts with
  | nil => simp [place]
  | cons other texts ih =>
    unfold place
    split
    · simp
    · simp [ih, or_left_comm]

theorem isRanked_place (t : String) (h : IsRanked texts) : IsRanked (place t texts) := by
  induction texts with
  | nil => exact List.pairwise_singleton _ t
  | cons other texts ih =>
    obtain ⟨hshorter, hranked⟩ := List.pairwise_cons.1 h
    unfold place
    split
    · next hlt =>
      refine List.pairwise_cons.2 ⟨?_, h⟩
      intro s hs
      rcases List.mem_cons.1 hs with rfl | hs
      · omega
      · have hle := hshorter s hs
        omega
    · next hle =>
      refine List.pairwise_cons.2 ⟨?_, ih hranked⟩
      intro s hs
      rcases mem_place.1 hs with rfl | hs
      · omega
      · exact hshorter s hs

theorem mem_add {s : String} : s ∈ add texts t ↔ s = t ∨ s ∈ texts := by
  unfold add
  split
  · next hmem =>
    have hmem : t ∈ texts := by simpa using hmem
    constructor
    · exact Or.inr
    · rintro (rfl | hs)
      · exact hmem
      · exact hs
  · exact mem_place

theorem isRanked_add (t : String) (h : IsRanked texts) : IsRanked (add texts t) := by
  unfold add
  split
  · exact h
  · exact isRanked_place t h

theorem isRanked_ofList (texts : List String) : IsRanked (ofList texts) := by
  unfold ofList
  induction texts.filter (· != "") using List.reverseRecOn with
  | nil => exact List.Pairwise.nil
  | append_singleton before t ih =>
    rw [List.foldl_append]
    exact isRanked_add t ih

theorem mem_ofList {s : String} : s ∈ ofList texts ↔ s ≠ "" ∧ s ∈ texts := by
  have hfold : ∀ given : List String, s ∈ given.foldl add [] ↔ s ∈ given := by
    intro given
    induction given using List.reverseRecOn with
    | nil => simp
    | append_singleton before t ih =>
      rw [List.foldl_append, List.foldl_cons, List.foldl_nil, mem_add, ih]
      simp [or_comm]
  rw [ofList, hfold, List.mem_filter]
  simp [and_comm]

end Ranked

end Scaffold
