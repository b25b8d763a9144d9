import Scaffold.Proofs.Run.Lockstep

set_option autoImplicit false

/-! # A file that no item reads

What one file holds does not matter to a run that does not read it: from file systems that differ in
this file alone, the same happens, and they differ in it alone afterwards
(`agreeStep_operations`). The run may look whether the file is there, and it may write it. -/

namespace Scaffold

open FileSystem

namespace Runner

variable {r : Runner} {place : List String} {s t : FileSystem}

/-- Whether the file at the place is read when an item is worked off. A copy that is refused, or that
    no directory can be made for, reads nothing. -/
def readsAt (r : Runner) (place : List String) : Item × FileSystem → Bool
  | (.copy source target, fs) =>
    !(!r.overwrite && fs.isThere target) &&
      match fs.makeParent target with
      | (.ok (), made) => made.resolve source == .ok (.found place)
      | (.error _, _) => false
  | (.filter source _, fs) => fs.resolve source == .ok (.found place)
  | _ => false

theorem avoids_of_ne {source : String} (h : (s.resolve source == .ok (.found place)) = false) :
    s.Avoids (· = place) source := by
  rintro other hother rfl
  simp [hother] at h

theorem agreeStep_copyBytes_of_readsAt (h : Agree (· = place) s t) {source target : String}
    (hread : r.readsAt place (.copy source target, s) = false) :
    AgreeStep (· = place) (r.copyBytes source target s) (r.copyBytes source target t) := by
  have hthere' := h.isThere_eq target
  cases hthere : !r.overwrite && s.isThere target with
  | true =>
    simp only [Bool.and_eq_true, Bool.not_eq_true'] at hthere
    rw [copyBytes_of_isThere hthere.1 hthere.2,
      copyBytes_of_isThere hthere.1 (hthere'.trans hthere.2)]
    exact agreeStep_tell h _
  | false =>
    refine agreeStep_copyBytes h hthere (by rw [hthere', hthere]) fun made hmade => ?_
    simp only [readsAt, hthere, hmade, Bool.not_false, Bool.true_and] at hread
    exact avoids_of_ne hread

theorem agreeStep_perform (h : Agree (· = place) s t) {item : Item}
    (hread : r.readsAt place (item, s) = false) :
    AgreeStep (· = place) (r.perform item s) (r.perform item t) := by
  cases item with
  | start op => exact agreeStep_tell h _
  | skip error => exact agreeStep_tell h _
  | directory target => exact agreeStep_makeCopy h target
  | copy source target => exact agreeStep_copyBytes_of_readsAt h hread
  | filter source target => exact agreeStep_filterFile rfl h (avoids_of_ne hread) target

theorem agreeStep_performAll (h : Agree (· = place) s t) {items : List Item}
    (hread : ∀ meeting ∈ r.meetings items s, r.readsAt place meeting = false) :
    AgreeStep (· = place) (r.performAll items s) (r.performAll items t) := by
  induction items generalizing s t with
  | nil => exact agreeStep_tell h []
  | cons item items ih =>
    have hfirst := agreeStep_perform h (hread _ List.mem_cons_self)
    refine hfirst.cons (ih hfirst.agree ?_)
    intro meeting hmeeting
    exact hread meeting (List.mem_cons_of_mem _ hmeeting)

/-- A runner is in lockstep with itself as long as it does not read the file. -/
theorem lockstep_self (r : Runner) (place : List String) :
    r.Lockstep r (Agree (· = place)) fun meeting => r.readsAt place meeting = false where
  templateRoot := rfl
  outputRoot := rfl
  agree := by
    intro s t h
    exact ⟨_, h⟩
  perform := by
    intro item s t h hread
    exact (agreeStep_perform h hread).agree

/-- If no item of the operations reads the file, they do the same whatever it holds. -/
theorem agreeStep_operations (h : Agree (· = place) s t) {ops : List Operation}
    (hread : ∀ meeting ∈ r.meetings (r.gather (ops.map r.operationItems) s) s,
      r.readsAt place meeting = false) :
    AgreeStep (· = place) (Step.seq (ops.map r.runOperation) s)
      (Step.seq (ops.map r.runOperation) t) := by
  have hitems := (lockstep_self r place).sameScript_operations ops s t h hread
  rw [performs_operations r ops s, performs_operations r ops t, hitems]
  exact agreeStep_performAll h hread

end Runner

end Scaffold
