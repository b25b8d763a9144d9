import Scaffold.Proofs.FileSystem.Agreement
import Scaffold.Proofs.Run.Items
import Scaffold.Proofs.Run.Operations

set_option autoImplicit false

/-! # Runs in lockstep

Two runs are in lockstep if they work off the same items and the file systems that they lead to stay
related. What comes up next depends on the directories and files alone and not on what the files
hold, so for file systems that agree up to the bytes of some files it is enough that single items
keep them related (`Lockstep.performAll`): then the items are the same ones as well
(`Lockstep.sameScript_operations`).

Items do the same in file systems that agree unless they look into a file that differs
(`AgreeStep`). -/

namespace Scaffold

open FileSystem

namespace Runner

/-! ## Meetings -/

/-- The items with the file systems that they meet. -/
def meetings (r : Runner) : List Item → FileSystem → List (Item × FileSystem)
  | [], _ => []
  | item :: items, fs => (item, fs) :: r.meetings items (r.perform item fs).2

theorem meetings_append (r : Runner) (before after : List Item) (fs : FileSystem) :
    r.meetings (before ++ after) fs =
      r.meetings before fs ++ r.meetings after (r.performAll before fs).2 := by
  induction before generalizing fs with
  | nil => rfl
  | cons item before ih =>
    rw [List.cons_append, meetings, meetings, ih, performAll_cons, List.cons_append]

theorem gather_append (r : Runner) (before after : List Script) (fs : FileSystem) :
    r.gather (before ++ after) fs =
      r.gather before fs ++ r.gather after (r.performAll (r.gather before fs) fs).2 := by
  induction before generalizing fs with
  | nil => rfl
  | cons script before ih =>
    rw [List.cons_append, gather, gather, ih, performAll_append, List.append_assoc]

theorem fst_mem_of_mem_meetings {r : Runner} {items : List Item} {fs : FileSystem}
    {meeting : Item × FileSystem} (h : meeting ∈ r.meetings items fs) : meeting.1 ∈ items := by
  induction items generalizing fs with
  | nil => exact absurd h List.not_mem_nil
  | cons item items ih =>
    rcases List.mem_cons.1 h with rfl | h
    · exact List.mem_cons_self
    · exact List.mem_cons_of_mem _ (ih h)

/-! ## Lockstep -/

/-- Two runners with the same roots that keep file systems related, which agree up to some bytes, as
    long as each item is met where it is allowed. -/
structure Lockstep (r r' : Runner) (Related : FileSystem → FileSystem → Prop)
    (Allowed : Item × FileSystem → Prop) : Prop where
  templateRoot : r'.templateRoot = r.templateRoot
  outputRoot : r'.outputRoot = r.outputRoot
  agree : ∀ s t, Related s t → ∃ differing, Agree differing s t
  perform : ∀ item s t, Related s t → Allowed (item, s) →
    Related (r.perform item s).2 (r'.perform item t).2

namespace Lockstep

variable {r r' : Runner} {Related : FileSystem → FileSystem → Prop}
variable {Allowed : Item × FileSystem → Prop}

theorem performAll (h : r.Lockstep r' Related Allowed) {items : List Item} {s t : FileSystem}
    (hrelated : Related s t) (hallowed : ∀ meeting ∈ r.meetings items s, Allowed meeting) :
    Related (r.performAll items s).2 (r'.performAll items t).2 := by
  induction items generalizing s t with
  | nil => exact hrelated
  | cons item items ih =>
    rw [performAll_cons, performAll_cons]
    refine ih (h.perform item s t hrelated (hallowed _ List.mem_cons_self)) ?_
    intro meeting hmeeting
    exact hallowed meeting (List.mem_cons_of_mem _ hmeeting)

/-- The scripts come up with the same items, if those of the first are all met where they are
    allowed. -/
def SameScript (r : Runner) (Related : FileSystem → FileSystem → Prop)
    (Allowed : Item × FileSystem → Prop) (first second : Script) : Prop :=
  ∀ s t, Related s t → (∀ meeting ∈ r.meetings (first s) s, Allowed meeting) → second t = first s

theorem sameScript_const (items : List Item) :
    SameScript r Related Allowed (fun _ => items) fun _ => items :=
  fun _ _ _ _ => rfl

theorem sameScript_gather (h : r.Lockstep r' Related Allowed) {first second : List Script}
    (hsame : List.Forall₂ (SameScript r Related Allowed) first second) :
    SameScript r Related Allowed (r.gather first) (r'.gather second) := by
  induction hsame with
  | nil => exact sameScript_const []
  | @cons script script' scripts scripts' hscript _ ih =>
    intro s t hrelated hallowed
    rw [gather, meetings_append] at hallowed
    have hnow : ∀ meeting ∈ r.meetings (script s) s, Allowed meeting := fun meeting hmeeting =>
      hallowed meeting (List.mem_append_left _ hmeeting)
    have hitems := hscript s t hrelated hnow
    have hrest := ih _ _ (h.performAll hrelated hnow) fun meeting hmeeting =>
      hallowed meeting (List.mem_append_right _ hmeeting)
    rw [gather, gather, hitems, hrest]

/-- A directory is listed alike in both file systems. -/
theorem sameScript_directoryItems (h : r.Lockstep r' Related Allowed) (room : Nat)
    (source target : String) :
    SameScript r Related Allowed (r.directoryItems room source target)
      (r'.directoryItems room source target) := by
  induction room generalizing source target with
  | zero =>
    intro s t hrelated _
    obtain ⟨differing, hagree⟩ := h.agree s t hrelated
    have hlist' := hagree.list_eq source
    cases hlist : s.list source with
    | error cause =>
      rw [directoryItems_of_error 0 hlist, directoryItems_of_error 0 (hlist'.trans hlist)]
    | ok entries =>
      rw [directoryItems_zero hlist, directoryItems_zero (hlist'.trans hlist)]
  | succ room ih =>
    intro s t hrelated hallowed
    obtain ⟨differing, hagree⟩ := h.agree s t hrelated
    have hlist' := hagree.list_eq source
    cases hlist : s.list source with
    | error cause =>
      rw [directoryItems_of_error (room + 1) hlist,
        directoryItems_of_error (room + 1) (hlist'.trans hlist)]
    | ok entries =>
      rw [directoryItems_succ room hlist] at hallowed ⊢
      rw [directoryItems_succ room (hlist'.trans hlist)]
      refine h.sameScript_gather (.cons (sameScript_const _) ?_) s t hrelated hallowed
      unfold entryScripts
      rw [List.forall₂_map_left_iff, List.forall₂_map_right_iff, List.forall₂_same]
      rintro ⟨name, isDirectory⟩ -
      cases isDirectory with
      | true => exact ih _ _
      | false => exact sameScript_const _

theorem sameScript_operationItems (h : r.Lockstep r' Related Allowed) (op : Operation) :
    SameScript r Related Allowed (r.operationItems op) (r'.operationItems op) := by
  intro s t hrelated hallowed
  obtain ⟨differing, hagree⟩ := h.agree s t hrelated
  have hsource : r'.sourceOf op = r.sourceOf op := by
    unfold sourceOf
    rw [h.templateRoot]
  have htarget : r'.targetOf op = r.targetOf op := by
    unfold targetOf
    rw [h.outputRoot]
  have hrest : ∀ items, r.meetings (.start op :: items) s =
      (.start op, s) :: r.meetings items s := fun items => rfl
  unfold operationItems at hallowed ⊢
  rw [hsource, htarget]
  rw [hrest] at hallowed
  congr 1
  cases hkind : op.kind with
  | copySubtree =>
    dsimp only
    rw [hagree.isDirectory_eq]
    split_ifs with hdirectory
    · refine h.sameScript_directoryItems pathLimit _ _ s t hrelated fun meeting hmeeting => ?_
      refine hallowed meeting (List.mem_cons_of_mem _ ?_)
      rw [hkind]
      dsimp only
      rwa [if_pos hdirectory]
    · rfl
  | copyFile =>
    dsimp only
    rw [hagree.isFile_eq]
  | filterFile => rfl

/-- In lockstep, operations come down to the same items. -/
theorem sameScript_operations (h : r.Lockstep r' Related Allowed) (ops : List Operation) :
    SameScript r Related Allowed (r.gather (ops.map r.operationItems))
      (r'.gather (ops.map r'.operationItems)) := by
  refine h.sameScript_gather ?_
  rw [List.forall₂_map_left_iff, List.forall₂_map_right_iff, List.forall₂_same]
  exact fun op _ => h.sameScript_operationItems op

end Lockstep

/-! ## Steps between file systems that agree -/

section

variable {r r' : Runner} {differing : List String → Prop} {s t : FileSystem} {source : String}

/-- The same happens, and the file systems agree afterwards. -/
structure AgreeStep (differing : List String → Prop) (first second : List Event × FileSystem) :
    Prop where
  events : second.1 = first.1
  agree : Agree differing first.2 second.2

theorem agreeStep_tell (h : Agree differing s t) (events : List Event) :
    AgreeStep differing (events, s) (events, t) :=
  ⟨rfl, h⟩

theorem AgreeStep.cons {step step' : Step} {steps steps' : List Step}
    (h : AgreeStep differing (step s) (step' t))
    (h' : AgreeStep differing (Step.seq steps (step s).2) (Step.seq steps' (step' t).2)) :
    AgreeStep differing (Step.seq (step :: steps) s) (Step.seq (step' :: steps') t) := by
  constructor
  · simp only [Step.seq, h.events, h'.events]
  · exact h'.agree

theorem agreeStep_makeCopy (h : Agree differing s t) (target : String) :
    AgreeStep differing (makeCopy target s) (makeCopy target t) := by
  have hmade := h.makeDirectories target
  rw [makeCopy_eq, makeCopy_eq, hmade.result]
  exact ⟨rfl, hmade.agree⟩

theorem agreeStep_putFile (h : Agree differing s t) (target : String) (bytes : ByteArray) :
    AgreeStep differing (putFile target bytes s) (putFile target bytes t) := by
  unfold putFile
  rcases (h.makeParent target).cases with
    ⟨made, made', hs, ht, hmade⟩ | ⟨cause, made, made', hs, ht, hmade⟩
  swap
  · rw [hs, ht]
    exact ⟨rfl, hmade⟩
  rw [hs, ht]
  dsimp only
  rcases (hmade.write target bytes).cases with
    ⟨done, done', hs, ht, hdone⟩ | ⟨cause, done, done', hs, ht, hdone⟩
  · rw [hs, ht]
    exact ⟨rfl, hdone⟩
  · rw [hs, ht]
    exact ⟨rfl, hdone⟩

theorem agreeStep_filterFile (hfilter : r'.filter = r.filter) (h : Agree differing s t)
    (hsource : s.Avoids differing source) (target : String) :
    AgreeStep differing (r.filterFile source target s) (r'.filterFile source target t) := by
  have hread : readSource t source = readSource s source := by
    unfold readSource
    rw [h.read_eq hsource]
  have hbytes : ∀ text, r'.filteredBytes target text = r.filteredBytes target text := by
    intro text
    unfold filteredBytes
    rw [hfilter]
  cases hfile : s.isFile source with
  | false =>
    rw [filterFile_of_not_isFile hfile, filterFile_of_not_isFile ((h.isFile_eq source).trans hfile)]
    exact ⟨rfl, h⟩
  | true =>
    have hfile' := (h.isFile_eq source).trans hfile
    cases hs : readSource s source with
    | error cause =>
      rw [filterFile_of_error hfile hs, filterFile_of_error hfile' (hread.trans hs)]
      exact ⟨rfl, h⟩
    | ok text =>
      rw [filterFile_of_text hfile hs, filterFile_of_text hfile' (hread.trans hs), hbytes]
      exact agreeStep_putFile h target _

/-- A copy that neither of the runners refuses is made, or fails, in both runs. -/
theorem agreeStep_copyBytes {target : String} (h : Agree differing s t)
    (hs : (!r.overwrite && s.isThere target) = false)
    (ht : (!r'.overwrite && t.isThere target) = false)
    (hsource : ∀ made, s.makeParent target = (.ok (), made) → made.Avoids differing source) :
    AgreeStep differing (r.copyBytes source target s) (r'.copyBytes source target t) := by
  rcases (h.makeParent target).cases with
    ⟨made, made', hmade, hmade', hagree⟩ | ⟨cause, made, made', hmade, hmade', hagree⟩
  swap
  · rw [copyBytes_of_makeParent_error hs hmade, copyBytes_of_makeParent_error ht hmade']
    exact ⟨rfl, hagree⟩
  rcases (hagree.copy (hsource made hmade) target).cases with
    ⟨done, done', hcopy, hcopy', hdone⟩ | ⟨cause, done, done', hcopy, hcopy', hdone⟩
  · rw [copyBytes_of_ok hs hmade hcopy, copyBytes_of_ok ht hmade' hcopy']
    exact ⟨rfl, hdone⟩
  · rw [copyBytes_of_copy_error hs hmade hcopy, copyBytes_of_copy_error ht hmade' hcopy']
    exact ⟨rfl, hdone⟩

end

end Runner

end Scaffold
