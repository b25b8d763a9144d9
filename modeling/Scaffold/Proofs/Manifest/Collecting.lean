import Mathlib.Data.List.Forall2
import Scaffold.Manifest.Basic

set_option autoImplicit false

/-! # Collecting operations

The operations of a set are pushed one after the other, and each goes to the end of the queue of its
kind. So a set comes from any order of its operations that keeps its queues (`foldl_push`), and a
section that is new to a manifest is put at its end with its operations (`foldl_step_section`). -/

namespace Scaffold

/-! ## Sets -/

namespace OperationSet

/-- The operations of the set, those of each kind in the order of their queue. -/
def IsOrder (set : OperationSet) (ops : List Operation) : Prop :=
  ∀ kind, (ops.filter fun op => op.kind = kind).map Operation.transfer = set.queue kind

instance (set : OperationSet) (ops : List Operation) : Decidable (set.IsOrder ops) :=
  decidable_of_iff (∀ kind ∈ [OperationKind.copySubtree, .copyFile, .filterFile],
      (ops.filter fun op => op.kind = kind).map Operation.transfer = set.queue kind)
    ⟨fun h kind => h kind (by cases kind <;> simp), fun h kind _ => h kind⟩

theorem ext_queue {set set' : OperationSet} (h : ∀ kind, set.queue kind = set'.queue kind) :
    set = set' := by
  obtain ⟨subtrees, files, filters⟩ := set
  obtain ⟨subtrees', files', filters'⟩ := set'
  obtain rfl : subtrees = subtrees' := h .copySubtree
  obtain rfl : files = files' := h .copyFile
  obtain rfl : filters = filters' := h .filterFile
  rfl

theorem queue_push (set : OperationSet) (op : Operation) (kind : OperationKind) :
    (set.push op).queue kind =
      set.queue kind ++ if op.kind = kind then [op.transfer] else [] := by
  obtain ⟨opKind, transfer⟩ := op
  cases opKind <;> cases kind <;> simp [push, queue]

theorem queue_foldl_push (ops : List Operation) (set : OperationSet) (kind : OperationKind) :
    (ops.foldl push set).queue kind =
      set.queue kind ++ (ops.filter fun op => op.kind = kind).map Operation.transfer := by
  induction ops generalizing set with
  | nil => simp
  | cons op ops ih =>
    rw [List.foldl_cons, ih, queue_push, List.append_assoc]
    by_cases hkind : op.kind = kind <;> simp [hkind]

/-- A set comes from its operations in any such order. -/
theorem IsOrder.foldl_push {set : OperationSet} {ops : List Operation} (h : set.IsOrder ops) :
    ops.foldl push .empty = set := by
  refine ext_queue fun kind => ?_
  rw [queue_foldl_push, h kind]
  cases kind <;> rfl

theorem mem_operations {set : OperationSet} {op : Operation} :
    op ∈ set.operations ↔ op.transfer ∈ set.queue op.kind := by
  obtain ⟨kind, transfer⟩ := op
  cases kind <;> simp [operations, queue]

theorem IsOrder.mem_operations {set : OperationSet} {ops : List Operation} (h : set.IsOrder ops)
    {op : Operation} (hop : op ∈ ops) : op ∈ set.operations := by
  rw [OperationSet.mem_operations, ← h op.kind]
  exact List.mem_map_of_mem (List.mem_filter.2 ⟨hop, by simp⟩)

/-- The order in which the operations run is one of them. -/
theorem isOrder_operations (set : OperationSet) : set.IsOrder set.operations := by
  intro kind
  have hall : ∀ transfers : List Transfer, transfers.filter (fun _ => true) = transfers :=
    fun transfers => List.filter_eq_self.2 fun _ _ => rfl
  have hnone : ∀ transfers : List Transfer, transfers.filter (fun _ => false) = [] :=
    fun transfers => List.filter_eq_nil_iff.2 fun _ _ => Bool.false_ne_true
  cases kind <;>
    simp [operations, queue, List.filter_map, Function.comp_def, hall, hnone]

end OperationSet

/-! ## Keyed lists -/

namespace Keyed

variable {κ α : Type} [DecidableEq κ]

theorem put_append_of_not_mem {k : κ} (f : Option α → α) {before : List (κ × α)}
    (h : k ∉ before.map Prod.fst) (after : List (κ × α)) :
    put k f (before ++ after) = before ++ put k f after := by
  induction before with
  | nil => rfl
  | cons entry before ih =>
    rw [List.map_cons, List.mem_cons, not_or] at h
    rw [List.cons_append, put, if_neg fun hk => h.1 hk.symm, ih h.2, List.cons_append]

end Keyed

/-! ## Manifests -/

namespace Manifest

theorem ext_entries {m m' : Manifest} (hmain : m.main = m'.main)
    (hentries : m.sections.entries = m'.sections.entries) : m = m' := by
  obtain ⟨main, ⟨entries, hnodup⟩⟩ := m
  obtain ⟨main', ⟨entries', hnodup'⟩⟩ := m'
  obtain rfl : main = main' := hmain
  obtain rfl : entries = entries' := hentries
  rfl

theorem foldl_step_operations (ops : List Operation) (m : Manifest) (current : Option String) :
    (ops.map ManifestLine.operation).foldl Reader.step ⟨m, current⟩ =
      ⟨ops.foldl (push · current) m, current⟩ := by
  induction ops generalizing m with
  | nil => rfl
  | cons op ops ih =>
    rw [List.map_cons, List.foldl_cons, List.foldl_cons]
    exact ih (m.push current op)

theorem foldl_push_none (ops : List Operation) (m : Manifest) :
    ops.foldl (push · none) m = { m with main := ops.foldl OperationSet.push m.main } := by
  induction ops generalizing m with
  | nil => rfl
  | cons op ops ih =>
    rw [List.foldl_cons, ih]
    rfl

/-- Operations are pushed to the section that was opened last. -/
theorem foldl_push_some {name : String} {before : List (String × OperationSet)}
    (hnew : name ∉ before.map Prod.fst) (ops : List Operation) {m : Manifest} {set : OperationSet}
    (hentries : m.sections.entries = before ++ [(name, set)]) :
    (ops.foldl (push · (some name)) m).main = m.main ∧
      (ops.foldl (push · (some name)) m).sections.entries =
        before ++ [(name, ops.foldl OperationSet.push set)] := by
  induction ops generalizing m set with
  | nil => exact ⟨rfl, hentries⟩
  | cons op ops ih =>
    refine @ih (m.push (some name) op) (set.push op) ?_
    show Keyed.put name _ m.sections.entries = _
    rw [hentries, Keyed.put_append_of_not_mem _ hnew, Keyed.put, if_pos rfl]
    rfl

/-- The lines of a section that no header has opened yet put it at the end. -/
theorem foldl_step_section {r : Reader} {name : String} (hname : name ≠ "")
    (hnew : name ∉ r.manifest.sections.entries.map Prod.fst) {set : OperationSet}
    {ops : List Operation} (horder : set.IsOrder ops) :
    ((.header name :: ops.map ManifestLine.operation).foldl Reader.step r).manifest.main =
        r.manifest.main ∧
      ((.header name :: ops.map ManifestLine.operation).foldl Reader.step
          r).manifest.sections.entries =
        r.manifest.sections.entries ++ [(name, set)] := by
  have hopened : (r.manifest.openSection name).sections.entries =
      r.manifest.sections.entries ++ [(name, .empty)] := by
    have hput := Keyed.put_append_of_not_mem (fun set : Option OperationSet => set.getD .empty)
      hnew []
    rw [List.append_nil] at hput
    exact hput
  have hstep : r.step (.header name) = ⟨r.manifest.openSection name, some name⟩ := if_neg hname
  obtain ⟨hmain, hentries⟩ := foldl_push_some hnew ops hopened
  rw [List.foldl_cons, hstep, foldl_step_operations]
  refine ⟨hmain, ?_⟩
  rw [hentries, horder.foldl_push]

/-- The lines that declare a section: its header, and its operations in some order. -/
def DeclareSection (entry : String × OperationSet) (lines : List ManifestLine) : Prop :=
  ∃ ops, entry.2.IsOrder ops ∧ lines = .header entry.1 :: ops.map ManifestLine.operation

/-- The lines that declare a manifest: the operations of the main set, and its sections. -/
def Declare (m : Manifest) (lines : List ManifestLine) : Prop :=
  ∃ ops sections, m.main.IsOrder ops ∧ List.Forall₂ DeclareSection m.sections.entries sections ∧
    lines = ops.map ManifestLine.operation ++ sections.flatten

theorem foldl_step_sections {entries : List (String × OperationSet)}
    {sections : List (List ManifestLine)} (h : List.Forall₂ DeclareSection entries sections)
    (hnames : ∀ entry ∈ entries, entry.1 ≠ "") (r : Reader)
    (hnodup : ((r.manifest.sections.entries ++ entries).map Prod.fst).Nodup) :
    (sections.flatten.foldl Reader.step r).manifest.main = r.manifest.main ∧
      (sections.flatten.foldl Reader.step r).manifest.sections.entries =
        r.manifest.sections.entries ++ entries := by
  induction h generalizing r with
  | nil => exact ⟨rfl, (List.append_nil _).symm⟩
  | @cons entry lines entries sections hentry _ ih =>
    obtain ⟨name, set⟩ := entry
    obtain ⟨ops, horder, rfl⟩ := hentry
    rw [List.append_cons] at hnodup
    have hnew : name ∉ r.manifest.sections.entries.map Prod.fst := by
      intro hmem
      rw [List.map_append, List.map_append, List.append_assoc, List.nodup_append] at hnodup
      exact hnodup.2.2 name hmem name (by simp) rfl
    obtain ⟨hmain, hentries⟩ := foldl_step_section (hnames _ List.mem_cons_self) hnew horder
    rw [List.flatten_cons, List.foldl_append]
    obtain ⟨hmain', hentries'⟩ :=
      ih (fun entry hentry => hnames entry (List.mem_cons_of_mem _ hentry)) _ (by rwa [hentries])
    rw [hmain', hentries', hmain, hentries, List.append_assoc]
    exact ⟨rfl, rfl⟩

/-- Reading the lines that declare a manifest gives the manifest. -/
theorem Declare.ofLines {m : Manifest} {lines : List ManifestLine} (h : m.Declare lines)
    (hnames : ∀ entry ∈ m.sections.entries, entry.1 ≠ "") : ofLines lines = m := by
  obtain ⟨ops, sections, hmain, hsections, rfl⟩ := h
  have hnodup : ((Manifest.empty.sections.entries ++ m.sections.entries).map Prod.fst).Nodup :=
    m.sections.nodup_keys
  unfold Manifest.ofLines
  rw [List.foldl_append, foldl_step_operations, foldl_push_none]
  obtain ⟨hmain', hentries⟩ := foldl_step_sections hsections hnames
    ⟨{ Manifest.empty with main := ops.foldl OperationSet.push .empty }, none⟩ hnodup
  exact ext_entries (hmain'.trans hmain.foldl_push) hentries

end Manifest

end Scaffold
