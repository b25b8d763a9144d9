import Scaffold.Proofs.FileSystem.Names
import Scaffold.Proofs.Manifest.Composition
import Scaffold.Proofs.Manifest.Sections

set_option autoImplicit false

/-! # The paths in a manifest

Every operation of a manifest was read from one of its lines, and a path that was read has at least
one segment and no slash in any. So if no segment is a dot or leads up, all segments are names. -/

namespace Scaffold

open FileSystem

namespace PathSpec

/-- A path of names. -/
structure IsNamed (spec : PathSpec) : Prop where
  ne_nil : spec.segments ≠ []
  isName : ∀ segment ∈ spec.segments, IsName segment

instance (spec : PathSpec) : Decidable spec.IsNamed :=
  decidable_of_iff (spec.segments ≠ [] ∧ ∀ segment ∈ spec.segments, IsName segment)
    ⟨fun ⟨hne, hnames⟩ => ⟨hne, hnames⟩, fun ⟨hne, hnames⟩ => ⟨hne, hnames⟩⟩

/-- The segments of a path that was read are trimmed pieces of it, and there is one at least. -/
theorem pieces_of_parse? {path : String} {spec : PathSpec} (h : parse? path = some spec) :
    spec.segments ≠ [] ∧
      ∀ segment ∈ spec.segments, ∃ piece ∈ Text.splitChars '/' path.toList,
        segment.toList = Text.trimChars piece ∧ isSegment segment.toList = true := by
  unfold parse? at h
  split at h
  · simp at h
  · next segments hne =>
    obtain rfl := Option.some.inj h
    refine ⟨by simpa using hne, fun segment hsegment => ?_⟩
    obtain ⟨cs, hcs, rfl⟩ := List.mem_map.1 hsegment
    unfold segmentChars at hcs
    rw [List.mem_filter, List.mem_map] at hcs
    obtain ⟨⟨piece, hpiece, rfl⟩, hcs⟩ := hcs
    rw [String.toList_ofList]
    exact ⟨piece, hpiece, rfl, hcs⟩

/-- The segments of a path that was read are not empty, and there is no slash in them. -/
theorem segments_of_parse? {path : String} {spec : PathSpec} (h : parse? path = some spec) :
    spec.segments ≠ [] ∧
      ∀ segment ∈ spec.segments, segment ≠ "" ∧ '/' ∉ segment.toList := by
  obtain ⟨hne, hpieces⟩ := pieces_of_parse? h
  refine ⟨hne, fun segment hsegment => ?_⟩
  obtain ⟨piece, hpiece, hchars, hkept⟩ := hpieces segment hsegment
  constructor
  · rintro rfl
    exact absurd hkept (by decide)
  · rw [hchars]
    exact fun hslash =>
      Text.not_mem_of_mem_splitChars hpiece (Text.mem_of_mem_trimChars hslash)

theorem isNamed_of_parse? {path : String} {spec : PathSpec} (h : parse? path = some spec)
    (hsteps : ∀ segment ∈ spec.segments, IsStep segment) : spec.IsNamed := by
  obtain ⟨hne, hsegments⟩ := segments_of_parse? h
  exact ⟨hne, fun segment hmem =>
    ⟨(hsegments segment hmem).1, (hsegments segment hmem).2, hsteps segment hmem⟩⟩

end PathSpec

namespace Operation

/-- An operation between paths of names. -/
structure IsNamed (op : Operation) : Prop where
  source : op.transfer.source.IsNamed
  target : op.transfer.target.IsNamed

instance (op : Operation) : Decidable op.IsNamed :=
  decidable_of_iff (op.transfer.source.IsNamed ∧ op.transfer.target.IsNamed)
    ⟨fun ⟨hsource, htarget⟩ => ⟨hsource, htarget⟩, fun ⟨hsource, htarget⟩ => ⟨hsource, htarget⟩⟩

/-- No segment of the operation's paths is a dot or leads up. -/
def IsPlain (op : Operation) : Prop :=
  ∀ segment ∈ op.transfer.source.segments ++ op.transfer.target.segments, IsStep segment

/-- Both paths of an operation that was read were read from tokens. -/
theorem exists_parse?_of_ofTokens? {tokens : List String} {op : Operation}
    (h : ofTokens? tokens = some op) :
    (∃ text ∈ tokens, PathSpec.parse? text = some op.transfer.source) ∧
      ∃ text ∈ tokens, PathSpec.parse? text = some op.transfer.target := by
  match tokens, h with
  | code :: source :: rest, h =>
    rw [ofTokens?_eq_map₂, Option.map₂_eq_some_iff] at h
    obtain ⟨kind, transfer, -, htransfer, rfl⟩ := h
    obtain ⟨sourceSpec, targetSpec, hsource, htarget, rfl⟩ := Option.map₂_eq_some_iff.1 htransfer
    refine ⟨⟨source, by simp, hsource⟩, rest.headD source, ?_, htarget⟩
    cases rest with
    | nil => simp
    | cons target rest => simp

end Operation

namespace ManifestLine

theorem colon_not_mem_parts {line part : String} (h : part ∈ parts line) : ':' ∉ part.toList := by
  obtain ⟨piece, hpiece, rfl⟩ := List.mem_map.1 h
  obtain ⟨cs, hcs, rfl⟩ := List.mem_map.1 hpiece
  unfold Text.trim
  rw [String.toList_ofList, String.toList_ofList]
  exact fun hcolon => Text.not_mem_of_mem_splitChars hcs (Text.mem_of_mem_trimChars hcolon)

theorem colon_not_mem_firstPart (line : String) : ':' ∉ (firstPart line).toList := by
  unfold firstPart
  cases hparts : parts line with
  | nil => decide
  | cons part rest => exact colon_not_mem_parts (by rw [hparts]; exact List.mem_cons_self)

end ManifestLine

namespace Manifest

/-- The operation stands in the main set or in the set of a section. -/
def Mentions (m : Manifest) (op : Operation) : Prop :=
  op ∈ m.main.operations ∨ ∃ name set, m.section? name = some set ∧ op ∈ set.operations

/-- No segment of a path in the manifest is a dot or leads up. -/
def IsPlain (m : Manifest) : Prop :=
  ∀ op, m.Mentions op → op.IsPlain

theorem mem_of_mem_operationsOf {lines : List ManifestLine} {name : String} {op : Operation}
    (h : op ∈ (ManifestLine.operationsOf lines name).operations) : .operation op ∈ lines := by
  have hqueue : ∀ kind transfer, transfer ∈ ManifestLine.queue lines name kind →
      .operation ⟨kind, transfer⟩ ∈ lines := by
    intro kind transfer hmem
    obtain ⟨⟨line, i⟩, hline, htransfer⟩ := List.mem_filterMap.1 hmem
    have hin : line ∈ lines := List.fst_mem_of_mem_zipIdx hline
    unfold ManifestLine.transfer? at htransfer
    split at htransfer
    · next other j heq =>
      split_ifs at htransfer with hother
      obtain rfl := Option.some.inj htransfer
      rw [(Prod.mk.inj heq).1] at hin
      rw [← hother.1]
      exact hin
    · simp at htransfer
  simp only [OperationSet.operations, ManifestLine.operationsOf, List.mem_append, List.mem_map] at h
  rcases h with (⟨transfer, hmem, rfl⟩ | ⟨transfer, hmem, rfl⟩) | ⟨transfer, hmem, rfl⟩
  · exact hqueue _ _ hmem
  · exact hqueue _ _ hmem
  · exact hqueue _ _ hmem

theorem mem_of_mentions_ofLines {lines : List ManifestLine} {op : Operation}
    (h : (ofLines lines).Mentions op) : .operation op ∈ lines := by
  have hlines : ofLines lines = declared lines := by
    rw [ofLines, foldl_step_eq_after]
    rfl
  rw [hlines] at h
  rcases h with hmain | ⟨name, set, hset, hop⟩
  · exact mem_of_mem_operationsOf hmain
  · rw [section?_declared] at hset
    split_ifs at hset
    obtain rfl := Option.some.inj hset
    exact mem_of_mem_operationsOf hop

/-- The paths in a manifest were read from texts without a colon. -/
theorem exists_parse?_of_mentions {filter : TextFilter} {text : String} {op : Operation}
    (h : (parse filter text).Mentions op) :
    (∃ source, ':' ∉ source.toList ∧ PathSpec.parse? source = some op.transfer.source) ∧
      ∃ target, ':' ∉ target.toList ∧ PathSpec.parse? target = some op.transfer.target := by
  have hmem := mem_of_mentions_ofLines h
  rw [ManifestLine.readAll_eq_map] at hmem
  obtain ⟨raw, -, hraw⟩ := List.mem_map.1 hmem
  have hmeans := ManifestLine.means_ofText (filter raw)
  rw [hraw] at hmeans
  cases hmeans with
  | operation _ _ hop =>
    obtain ⟨⟨source, hsource, hsourceSpec⟩, target, htarget, htargetSpec⟩ :=
      Operation.exists_parse?_of_ofTokens? hop
    exact ⟨⟨source, ManifestLine.colon_not_mem_parts hsource, hsourceSpec⟩,
      target, ManifestLine.colon_not_mem_parts htarget, htargetSpec⟩

/-- The operations of a manifest without dots are between paths of names. -/
theorem isNamed_of_mentions {filter : TextFilter} {text : String} {op : Operation}
    (h : (parse filter text).Mentions op) (hplain : op.IsPlain) : op.IsNamed := by
  obtain ⟨⟨source, -, hsource⟩, target, -, htarget⟩ := exists_parse?_of_mentions h
  constructor
  · exact PathSpec.isNamed_of_parse? hsource fun segment hmem =>
      hplain segment (List.mem_append_left _ hmem)
  · exact PathSpec.isNamed_of_parse? htarget fun segment hmem =>
      hplain segment (List.mem_append_right _ hmem)

end Manifest

end Scaffold
