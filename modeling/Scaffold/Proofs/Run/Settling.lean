import Scaffold.Proofs.FileSystem.Apart
import Scaffold.Proofs.Run.Steps

set_option autoImplicit false

/-! # Running once more

A step *settles* if, made once more at any later time, it finds everything as it left it: what it
wrote it writes again with the same bytes or leaves alone, what stood in its way still does, and it
touches nothing else. Steps that settle do so one after the other (`Settles.seq`), though each of
them may meet what the others have done. The steps of a run settle when its sources lie apart from
its targets and no name on the way leads up. -/

namespace Scaffold

open FileSystem

/-! ## Counting events -/

namespace Event

/-- Whether the event is that of a file being copied. -/
def isCopied : Event → Bool
  | .copied _ => true
  | _ => false

/-- Whether the event is that of a filtered file being written. -/
def isWrote : Event → Bool
  | .wrote _ => true
  | _ => false

/-- Whether the event is that of an item being passed over. -/
def isSkipped : Event → Bool
  | .skipped _ => true
  | _ => false

end Event

theorem Report.ofEvents_append (events later : List Event) :
    ofEvents (events ++ later) = (ofEvents events).merge (ofEvents later) := by
  unfold ofEvents merge
  rw [List.countP_append, List.filterMap_append]

theorem Report.written_ofEvents (events : List Event) :
    (Report.ofEvents events).written =
      events.countP Event.isCopied + events.countP Event.isWrote := by
  unfold ofEvents
  induction events with
  | nil => rfl
  | cons event events ih =>
    dsimp only at ih ⊢
    rw [List.countP_cons, List.countP_cons, List.countP_cons, ih]
    cases event <;> simp [Event.isWriting, Event.isCopied, Event.isWrote] <;> omega

theorem Report.length_skipped_ofEvents (events : List Event) :
    (Report.ofEvents events).skipped.length = events.countP Event.isSkipped := by
  unfold ofEvents
  induction events with
  | nil => rfl
  | cons event events ih =>
    dsimp only at ih ⊢
    rw [List.countP_cons, List.filterMap_cons, ← ih]
    cases event <;> simp [Event.error?, Event.isSkipped]

/-- How often each kind of thing happens when the same is done once more: filtered files are written
    again, and copies are made again or, where they may not overwrite, passed over. -/
structure SameCounts (overwrite : Bool) (events again : List Event) : Prop where
  wrote : again.countP Event.isWrote = events.countP Event.isWrote
  copied : again.countP Event.isCopied = if overwrite then events.countP Event.isCopied else 0
  skipped : again.countP Event.isSkipped =
    events.countP Event.isSkipped + if overwrite then 0 else events.countP Event.isCopied

theorem SameCounts.append {overwrite : Bool} {events again events' again' : List Event}
    (h : SameCounts overwrite events again) (h' : SameCounts overwrite events' again') :
    SameCounts overwrite (events ++ events') (again ++ again') := by
  obtain ⟨hwrote, hcopied, hskipped⟩ := h
  obtain ⟨hwrote', hcopied', hskipped'⟩ := h'
  constructor
  · rw [List.countP_append, List.countP_append, hwrote, hwrote']
  · rw [List.countP_append, List.countP_append, hcopied, hcopied']
    split_ifs <;> rfl
  · rw [List.countP_append, List.countP_append, List.countP_append, hskipped, hskipped']
    split_ifs <;> omega

/-- Where nothing is copied, the same happens once more. -/
theorem SameCounts.of_eq (overwrite : Bool) {events : List Event}
    (h : events.countP Event.isCopied = 0) : SameCounts overwrite events events := by
  constructor
  · rfl
  · rw [h, ite_self]
  · rw [h, ite_self, Nat.add_zero]

theorem SameCounts.skipped_skipped (overwrite : Bool) (error error' : Error) :
    SameCounts overwrite [.skipped error] [.skipped error'] := by
  cases overwrite <;> exact ⟨rfl, rfl, rfl⟩

theorem SameCounts.report_of_overwrite {events again : List Event}
    (h : SameCounts true events again) :
    (Report.ofEvents again).written = (Report.ofEvents events).written ∧
      (Report.ofEvents again).skipped.length = (Report.ofEvents events).skipped.length := by
  obtain ⟨hwrote, hcopied, hskipped⟩ := h
  rw [if_pos rfl] at hcopied hskipped
  rw [Report.written_ofEvents, Report.written_ofEvents, Report.length_skipped_ofEvents,
    Report.length_skipped_ofEvents, hwrote, hcopied, hskipped]
  exact ⟨rfl, Nat.add_zero _⟩

/-- Without leave to overwrite only filtered files are written again, and every copy of the first
    time is passed over. -/
theorem SameCounts.report_of_not_overwrite {events again : List Event}
    (h : SameCounts false events again) :
    (Report.ofEvents again).written = events.countP Event.isWrote ∧
      (Report.ofEvents again).skipped.length =
        (Report.ofEvents events).skipped.length + events.countP Event.isCopied := by
  obtain ⟨hwrote, hcopied, hskipped⟩ := h
  rw [if_neg Bool.false_ne_true] at hcopied hskipped
  rw [Report.written_ofEvents, Report.length_skipped_ofEvents, Report.length_skipped_ofEvents,
    hwrote, hcopied, hskipped]
  exact ⟨Nat.zero_add _, rfl⟩

/-! ## Settling -/

section Settling

variable {overwrite : Bool} {base : FileSystem} {top : List String}

/-- What came of doing something first in `s` and then in `t` once more. Every place holds the file
    that was put there the first time, or it is left alone the second time and no file there was
    replaced the first time. -/
structure Settled (overwrite : Bool) (s : FileSystem) (first : List Event × FileSystem)
    (t : FileSystem) (second : List Event × FileSystem) : Prop where
  counts : SameCounts overwrite first.1 second.1
  lookup : ∀ place,
    (∃ bytes, first.2.lookup place = some (.file bytes) ∧
      second.2.lookup place = some (.file bytes)) ∨
    (second.2.lookup place = t.lookup place ∧
      ∀ bytes, s.lookup place = some (.file bytes) → first.2.lookup place = some (.file bytes))

/-- From any growth of `base` below `top`, the step only grows the file system below `top`, and done
    once more after any further growth it has settled. -/
def Settles (overwrite : Bool) (base : FileSystem) (top : List String) (step : Step) : Prop :=
  ∀ s, GrowsBelow top base s → GrowsBelow top s (step s).2 ∧
    ∀ t, GrowsBelow top (step s).2 t → Settled overwrite s (step s) t (step t)

theorem Settles.congr {step step' : Step} (h : Settles overwrite base top step')
    (heq : ∀ s, GrowsBelow top base s → step s = step' s) : Settles overwrite base top step := by
  intro s hs
  obtain ⟨hgrows, hsettled⟩ := h s hs
  rw [heq s hs]
  refine ⟨hgrows, fun t ht => ?_⟩
  rw [heq t ((hs.trans hgrows).trans ht)]
  exact hsettled t ht

/-- Telling what happens settles. -/
theorem settles_tell {events : List Event} (h : events.countP Event.isCopied = 0) :
    Settles overwrite base top fun fs => (events, fs) := by
  intro s _
  exact ⟨.refl top s, fun t _ => ⟨.of_eq overwrite h, fun place => Or.inr ⟨rfl, fun _ hs => hs⟩⟩⟩

theorem settles_skip (error : Error) : Settles overwrite base top (Step.skip error) :=
  settles_tell rfl

theorem Settles.cons {step : Step} {steps : List Step} (h : Settles overwrite base top step)
    (h' : Settles overwrite base top (Step.seq steps)) :
    Settles overwrite base top (Step.seq (step :: steps)) := by
  intro s hs
  obtain ⟨hgrows, hsettled⟩ := h s hs
  obtain ⟨hgrows', hsettled'⟩ := h' (step s).2 (hs.trans hgrows)
  refine ⟨hgrows.trans hgrows', fun t ht => ?_⟩
  -- once more, the first step starts after all of them and the others start after it
  have hfirst := hsettled t (hgrows'.trans ht)
  have hbetween := (h t (((hs.trans hgrows).trans hgrows').trans ht)).1
  have hlater := hsettled' (step t).2 (ht.trans hbetween)
  refine ⟨hfirst.counts.append hlater.counts, fun place => ?_⟩
  rcases hlater.lookup place with hsame | ⟨hleft, hkept⟩
  · exact Or.inl hsame
  · rcases hfirst.lookup place with ⟨bytes, hbytes, hagain⟩ | ⟨hleft', hkept'⟩
    · exact Or.inl ⟨bytes, hkept bytes hbytes, hleft.trans hagain⟩
    · exact Or.inr ⟨hleft.trans hleft', fun bytes hfile => hkept bytes (hkept' bytes hfile)⟩

theorem Settles.seq {steps : List Step} (h : ∀ step ∈ steps, Settles overwrite base top step) :
    Settles overwrite base top (Step.seq steps) := by
  induction steps with
  | nil => exact settles_tell rfl
  | cons step steps ih =>
    refine (h step List.mem_cons_self).cons (ih fun other hother => ?_)
    exact h other (List.mem_cons_of_mem _ hother)

/-- After a step that settles, doing it once more leaves everything as it is. -/
theorem Settles.lookup_again {step : Step} (h : Settles overwrite base top step)
    (place : List String) : (step (step base).2).2.lookup place = (step base).2.lookup place := by
  obtain ⟨-, hsettled⟩ := h base (.refl top base)
  rcases (hsettled _ (.refl top _)).lookup place with ⟨bytes, hfirst, hagain⟩ | ⟨hleft, -⟩
  · rw [hfirst, hagain]
  · exact hleft

theorem Settles.counts_again {step : Step} (h : Settles overwrite base top step) :
    SameCounts overwrite (step base).1 (step (step base).2).1 :=
  ((h base (.refl top base)).2 _ (.refl top _)).counts

/-! ## Adding directories and writing files -/

variable {s t made : FileSystem}

/-- Only directories were added, and nothing happens once more. -/
theorem Settled.of_addsDirectories {events again : List Event} (hadds : AddsDirectories top s made)
    (hcounts : SameCounts overwrite events again) :
    Settled overwrite s (events, made) t (again, t) :=
  ⟨hcounts, fun _ => Or.inr ⟨rfl, fun _ hfile => hadds.file_iff.2 hfile⟩⟩

/-- A file was written where none was, and it is left alone once more. -/
theorem Settled.of_new_file {events again : List Event} {done : FileSystem} {place : List String}
    {bytes : ByteArray} (hadds : AddsDirectories top s made)
    (hwrites : Writes place bytes made done)
    (hnew : ∀ old, s.lookup place ≠ some (.file old))
    (hcounts : SameCounts overwrite events again) :
    Settled overwrite s (events, done) t (again, t) := by
  refine ⟨hcounts, fun other => Or.inr ⟨rfl, fun old hfile => ?_⟩⟩
  have hne : other ≠ place := by
    rintro rfl
    exact hnew old hfile
  rw [hwrites.lookup_of_ne hne]
  exact hadds.file_iff.2 hfile

/-- A file was written, and it is written with the same bytes once more. -/
theorem Settled.of_same_file {events again : List Event} {done done' : FileSystem}
    {place : List String} {bytes : ByteArray} (hadds : AddsDirectories top s made)
    (hwrites : Writes place bytes made done) (hwrites' : Writes place bytes t done')
    (hcounts : SameCounts overwrite events again) :
    Settled overwrite s (events, done) t (again, done') := by
  refine ⟨hcounts, fun other => ?_⟩
  by_cases hother : other = place
  · rw [hother]
    exact Or.inl ⟨bytes, hwrites.lookup_self, hwrites'.lookup_self⟩
  · refine Or.inr ⟨hwrites'.lookup_of_ne hother, fun old hfile => ?_⟩
    rw [hwrites.lookup_of_ne hother]
    exact hadds.file_iff.2 hfile

end Settling

end Scaffold
