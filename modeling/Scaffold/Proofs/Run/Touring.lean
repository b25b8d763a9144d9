import Mathlib.Data.List.Lex
import Scaffold.Proofs.FileSystem.Passing
import Scaffold.Proofs.Run.Accounting

set_option autoImplicit false

/-! # The tour of a copied directory

The copying of a directory lists directories while it makes others, so it may come to what it has
made itself. The tour says what it comes to and in which order: the order of dictionaries. All that
was below the directory in the beginning is on the tour. Whatever else is on it was made before its
directory was listed, by the copying of something that comes earlier in the order. -/

namespace Scaffold

open FileSystem

namespace Runner

variable {r : Runner} {base s fs : FileSystem} {source target name : String} {names : List String}

/-! ## Tours -/

/-- What a tour comes to: the names below the directory that is copied, and whether it is taken for
    a directory. -/
abbrev Stop := List String × Bool

/-- A step of the copying and the stops that are made on it. -/
structure Leg where
  step : Step
  stops : FileSystem → List Stop

/-- The stops of one leg after the other. -/
def trail : List Leg → FileSystem → List Stop
  | [], _ => []
  | leg :: legs, fs => leg.stops fs ++ trail legs (leg.step fs).2

/-- The stops of the copying of the directory that the names lead to from `source`. -/
def tour (r : Runner) (source target : String) : Nat → List String → FileSystem → List Stop
  | room, names => fun fs =>
    match fs.list (along source names) with
    | .error _ => [(names, true)]
    | .ok entries =>
      match room with
      | 0 => [(names, true)]
      | room + 1 =>
        (names, true) ::
          trail
            (entries.map fun (name, isDirectory) =>
              let names := names ++ [name]
              if isDirectory then
                ⟨r.copyDirectory room (along source names) (along target names),
                  r.tour source target room names⟩
              else
                ⟨r.copyBytes (along source names) (along target names), fun _ => [(names, false)]⟩)
            (makeCopy (along target names) fs).2

/-- The leg for one of the names that are listed in a directory. -/
def entryLeg (r : Runner) (source target : String) (room : Nat) (names : List String) :
    String × Bool → Leg
  | (name, true) =>
    ⟨r.copyDirectory room (along source (names ++ [name])) (along target (names ++ [name])),
      r.tour source target room (names ++ [name])⟩
  | (name, false) =>
    ⟨r.copyBytes (along source (names ++ [name])) (along target (names ++ [name])),
      fun _ => [(names ++ [name], false)]⟩

theorem tour_of_error (room : Nat) {cause : Cause}
    (h : fs.list (along source names) = .error cause) :
    r.tour source target room names fs = [(names, true)] := by
  unfold tour
  rw [h]

theorem tour_zero (names : List String) (fs : FileSystem) :
    r.tour source target 0 names fs = [(names, true)] := by
  unfold tour
  cases fs.list (along source names) <;> rfl

theorem tour_succ (room : Nat) {entries : List (String × Bool)}
    (h : fs.list (along source names) = .ok entries) :
    r.tour source target (room + 1) names fs =
      (names, true) ::
        trail (entries.map (r.entryLeg source target room names))
          (makeCopy (along target names) fs).2 := by
  rw [tour]
  simp only [h]
  congr 2
  refine List.map_congr_left fun entry _ => ?_
  obtain ⟨name, isDirectory⟩ := entry
  cases isDirectory <;> rfl

theorem along_concat (path : String) (names : List String) (name : String) :
    along path (names ++ [name]) = Path.join (along path names) name := by
  simp [along]

theorem map_step_entryLeg (r : Runner) (source target : String) (room : Nat) (names : List String)
    (entries : List (String × Bool)) :
    (entries.map (r.entryLeg source target room names)).map Leg.step =
      r.copyEntries room (along source names) (along target names) entries := by
  unfold copyEntries
  rw [List.map_map]
  refine List.map_congr_left fun entry _ => ?_
  obtain ⟨name, isDirectory⟩ := entry
  dsimp only
  rw [← along_concat, ← along_concat]
  cases isDirectory <;> rfl

theorem mem_trail_iff {legs : List Leg} {stop : Stop} :
    stop ∈ trail legs fs ↔ ∃ before leg after, legs = before ++ leg :: after ∧
      stop ∈ leg.stops (Step.seq (before.map Leg.step) fs).2 := by
  induction legs generalizing fs with
  | nil => simp [trail]
  | cons leg legs ih =>
    rw [trail, List.mem_append, ih]
    constructor
    · rintro (hstop | ⟨before, other, after, rfl, hstop⟩)
      · exact ⟨[], leg, legs, rfl, hstop⟩
      · exact ⟨leg :: before, other, after, rfl, hstop⟩
    · rintro ⟨before, other, after, heq, hstop⟩
      cases before with
      | nil =>
        obtain ⟨rfl, rfl⟩ := List.cons.inj heq
        exact Or.inl hstop
      | cons first before =>
        obtain ⟨rfl, rfl⟩ := List.cons.inj heq
        exact Or.inr ⟨before, other, after, rfl, hstop⟩

/-! ## A tour is what is worked off -/

/-- The target of an item of the copying of a directory, and whether it is to be a directory. -/
def Item.stop? : Item → Option (String × Bool)
  | .directory target => some (target, true)
  | .copy _ target => some (target, false)
  | .start _ | .skip _ | .filter _ _ => none

/-- The stop as it is worked off. -/
def Stop.onto (target : String) (stop : Stop) : String × Bool :=
  (along target stop.1, stop.2)

theorem filterMap_gather {scripts : List Script} {legs : List Leg}
    (h : List.Forall₂ (fun script leg => r.Performs script leg.step ∧
      ∀ fs, (script fs).filterMap Item.stop? = (leg.stops fs).map (Stop.onto target)) scripts legs)
    (fs : FileSystem) :
    (r.gather scripts fs).filterMap Item.stop? = (trail legs fs).map (Stop.onto target) := by
  induction h generalizing fs with
  | nil => rfl
  | @cons script leg scripts legs hleg _ ih =>
    obtain ⟨hperforms, hstops⟩ := hleg
    rw [gather, trail, List.filterMap_append, List.map_append, hstops, ih, hperforms fs]

theorem filterMap_directoryItems (r : Runner) (source target : String) (room : Nat)
    (names : List String) (fs : FileSystem) :
    (r.directoryItems room (along source names) (along target names) fs).filterMap Item.stop? =
      (r.tour source target room names fs).map (Stop.onto target) := by
  induction room generalizing names fs with
  | zero =>
    rw [tour_zero]
    cases hlist : fs.list (along source names) with
    | error cause =>
      rw [directoryItems_of_error 0 hlist]
      rfl
    | ok entries =>
      rw [directoryItems_zero hlist]
      rfl
  | succ room ih =>
    cases hlist : fs.list (along source names) with
    | error cause =>
      rw [directoryItems_of_error (room + 1) hlist, tour_of_error _ hlist]
      rfl
    | ok entries =>
      rw [directoryItems_succ room hlist, tour_succ room hlist, gather, List.filterMap_append,
        performAll_singleton, List.map_cons]
      have hentries : List.Forall₂ (fun script leg => r.Performs script leg.step ∧
          ∀ fs, (script fs).filterMap Item.stop? = (leg.stops fs).map (Stop.onto target))
          (r.entryScripts room (along source names) (along target names) entries)
          (entries.map (r.entryLeg source target room names)) := by
        unfold entryScripts
        rw [List.forall₂_map_left_iff, List.forall₂_map_right_iff, List.forall₂_same]
        rintro ⟨name, isDirectory⟩ -
        dsimp only
        rw [← along_concat, ← along_concat]
        cases isDirectory with
        | true => exact ⟨performs_directoryItems room _ _, ih (names ++ [name])⟩
        | false => exact ⟨performs_perform (.copy _ _), fun _ => rfl⟩
      rw [filterMap_gather hentries]
      rfl

/-! ## The order of a tour -/

theorem pairwise_entries {path : String} {entries : List (String × Bool)}
    (h : fs.list path = .ok entries) : (entries.map Prod.fst).Pairwise (· < ·) := by
  obtain ⟨place, children, -, -, rfl⟩ := exists_of_list h
  rw [List.map_map]
  exact List.map_id _ ▸ Node.pairwise_names _

theorem lt_append_cons (names : List String) (name : String) (rest : List String) :
    names < names ++ name :: rest := by
  have h : names ++ [] < names ++ name :: rest :=
    List.append_left_lt (List.nil_lt_cons name rest)
  rwa [List.append_nil] at h

theorem lt_concat (names : List String) (name : String) : names < names ++ [name] :=
  lt_append_cons names name []

/-- What comes behind a name comes before everything behind a later one. -/
theorem lt_of_prefixes {first second : String} {names before after : List String}
    (hlt : first < second) (hbefore : names ++ [first] <+: before)
    (hafter : names ++ [second] <+: after) : before < after := by
  obtain ⟨rest, rfl⟩ := hbefore
  obtain ⟨rest', rfl⟩ := hafter
  rw [List.append_assoc, List.append_assoc]
  exact List.append_left_lt (List.cons_lt_cons_iff.2 (Or.inl hlt))

/-- The stops are in the order of dictionaries, and they all are at or below the names. -/
structure InOrder (names : List String) (stops : List Stop) : Prop where
  pairwise : stops.Pairwise fun earlier later => earlier.1 < later.1
  begins : ∀ stop ∈ stops, names <+: stop.1

theorem inOrder_singleton (names : List String) (isDirectory : Bool) :
    InOrder names [(names, isDirectory)] :=
  ⟨List.pairwise_singleton _ _, fun stop hstop => by
    rw [List.mem_singleton.1 hstop]⟩

theorem inOrder_trail {entries : List (String × Bool)} {leg : String × Bool → Leg}
    (hsorted : (entries.map Prod.fst).Pairwise (· < ·))
    (hleg : ∀ entry ∈ entries, ∀ fs, InOrder (names ++ [entry.1]) ((leg entry).stops fs))
    (fs : FileSystem) :
    (trail (entries.map leg) fs).Pairwise (fun earlier later => earlier.1 < later.1) ∧
      ∀ stop ∈ trail (entries.map leg) fs, ∃ entry ∈ entries, names ++ [entry.1] <+: stop.1 := by
  induction entries generalizing fs with
  | nil => exact ⟨List.Pairwise.nil, fun stop hstop => absurd hstop List.not_mem_nil⟩
  | cons entry entries ih =>
    rw [List.map_cons, List.pairwise_cons] at hsorted
    obtain ⟨hpairwise, hbegins⟩ := ih hsorted.2
      (fun other hother => hleg other (List.mem_cons_of_mem _ hother)) ((leg entry).step fs).2
    have hfirst := hleg entry List.mem_cons_self fs
    rw [List.map_cons, trail]
    constructor
    · refine List.pairwise_append.2 ⟨hfirst.pairwise, hpairwise, fun stop hstop later hlater => ?_⟩
      obtain ⟨other, hother, hon⟩ := hbegins later hlater
      exact lt_of_prefixes (hsorted.1 _ (List.mem_map_of_mem hother)) (hfirst.begins stop hstop) hon
    · intro stop hstop
      rcases List.mem_append.1 hstop with hstop | hstop
      · exact ⟨entry, List.mem_cons_self, hfirst.begins stop hstop⟩
      · obtain ⟨other, hother, hon⟩ := hbegins stop hstop
        exact ⟨other, List.mem_cons_of_mem _ hother, hon⟩

theorem inOrder_tour (r : Runner) (source target : String) (room : Nat) (names : List String)
    (fs : FileSystem) : InOrder names (r.tour source target room names fs) := by
  induction room generalizing names fs with
  | zero =>
    rw [tour_zero]
    exact inOrder_singleton names true
  | succ room ih =>
    cases hlist : fs.list (along source names) with
    | error cause =>
      rw [tour_of_error _ hlist]
      exact inOrder_singleton names true
    | ok entries =>
      rw [tour_succ room hlist]
      have hleg : ∀ entry ∈ entries, ∀ fs,
          InOrder (names ++ [entry.1]) ((r.entryLeg source target room names entry).stops fs) := by
        rintro ⟨name, isDirectory⟩ - fs
        cases isDirectory with
        | true => exact ih (names ++ [name]) fs
        | false => exact inOrder_singleton (names ++ [name]) false
      obtain ⟨hpairwise, hbegins⟩ := inOrder_trail (pairwise_entries hlist) hleg
        (makeCopy (along target names) fs).2
      constructor
      · refine List.pairwise_cons.2 ⟨fun later hlater => ?_, hpairwise⟩
        obtain ⟨entry, -, rest, heq⟩ := hbegins later hlater
        rw [← heq, List.append_assoc]
        exact lt_append_cons names entry.1 rest
      · intro stop hstop
        rcases List.mem_cons.1 hstop with rfl | hstop
        · exact List.prefix_rfl
        · obtain ⟨entry, -, hon⟩ := hbegins stop hstop
          exact (List.prefix_append names [entry.1]).trans hon

/-! ## What is made on the way -/

/-- Since `base` the file system has only grown, and what is new stands where the copies of the
    stops were to be made, or on the way there. -/
structure Reached (base : FileSystem) (target : String) (stops : List Stop) (s : FileSystem) :
    Prop where
  grows : GrowsWell base s
  made : ∀ place, base.lookup place = none → s.lookup place ≠ none →
    ∃ stop ∈ stops, base.Passes (along target stop.1) place

theorem reached_nil (base : FileSystem) (target : String) : Reached base target [] base :=
  ⟨.refl base, fun _ hnone hthere => absurd hnone hthere⟩

/-- An item only makes something where the path of its target passes. -/
theorem passes_of_changes {item : Item} {t : FileSystem} {place : List String} {path : String}
    {isDirectory : Bool} (h : item.Changes s t) (hitem : item.stop? = some (path, isDirectory))
    (hnone : s.lookup place = none) (hthere : t.lookup place ≠ none) : s.Passes path place := by
  have hpath : ∀ {target : String}, item.file? = some target → target = path := by
    intro target htarget
    cases item <;> simp_all [Item.file?, Item.stop?]
  cases h with
  | nothing => exact absurd hnone hthere
  | directory target =>
    obtain ⟨rfl, -⟩ := Prod.mk.inj (Option.some.inj hitem)
    exact passes_of_makeDirectories hnone hthere
  | parent htarget =>
    rw [hpath htarget] at hthere
    exact passes_of_makeParent hnone hthere
  | @file _ target written bytes _ htarget hopens hwrites =>
    obtain rfl := hpath htarget
    by_cases hplace : place = written
    · rw [hplace, hopens.eq_spot, spot_congr (addsDirectories_makeParent s _).workDir]
      exact passes_spot s _
    · rw [hwrites.lookup_of_ne hplace] at hthere
      exact passes_of_makeParent hnone hthere

theorem Reached.step {stops : List Stop} (h : Reached base target stops s) {item : Item}
    {stop : Stop} {t : FileSystem} (hitem : item.stop? = some (stop.onto target))
    (hchanges : item.Changes s t) : Reached base target (stops ++ [stop]) t := by
  refine ⟨h.grows.trans hchanges.growsWell, fun place hnone hthere => ?_⟩
  by_cases hs : s.lookup place = none
  · have hpasses := passes_of_changes hchanges hitem hs hthere
    rw [passes_congr h.grows.grows.workDir] at hpasses
    exact ⟨stop, by simp, hpasses⟩
  · obtain ⟨other, hother, hpasses⟩ := h.made place hnone hs
    exact ⟨other, List.mem_append_left _ hother, hpasses⟩

/-! ## How stops come about -/

/-- A walk came to the stop in the beginning. -/
structure IsOld (base : FileSystem) (source : String) (stop : Stop) : Prop where
  visits : base.Visits source stop.1
  kind : stop.2 = (base.lookup (base.spot source ++ stop.1) == some .directory)

/-- The stop was not there in the beginning. It stands where the copy of an earlier stop was to be
    made, or on the way there, and its directory was listed only after that. -/
structure IsOwn (base : FileSystem) (source target : String) (stops : List Stop) (stop : Stop) :
    Prop where
  free : base.lookup (base.spot source ++ stop.1) = none
  listed : (stop.1.dropLast, true) ∈ stops
  made : ∃ other ∈ stops, other.1 < stop.1.dropLast ∧
    base.Passes (along target other.1) (base.spot source ++ stop.1)

/-- How a stop can come about. -/
def Explained (base : FileSystem) (source target : String) (stops : List Stop) (stop : Stop) :
    Prop :=
  IsOld base source stop ∨ IsOwn base source target stops stop

theorem Explained.mono {stops more : List Stop} {stop : Stop}
    (h : Explained base source target stops stop) (hmore : stops ⊆ more) :
    Explained base source target more stop := by
  refine h.imp_right fun h => ⟨h.free, hmore h.listed, ?_⟩
  obtain ⟨other, hother, hmade⟩ := h.made
  exact ⟨other, hmore hother, hmade⟩

/-- What can be listed now and was there in the beginning could be listed then. -/
theorem isDirectory_along_of_grows (hsource : base.isDirectory source = true)
    (hgrows : GrowsBelow [] base s) (hnames : ∀ name ∈ names, IsName name)
    (hthere : base.lookup (base.spot source ++ names) ≠ none)
    (hdirectory : s.isDirectory (along source names) = true) :
    base.isDirectory (along source names) = true := by
  have hextends := extends_along hnames source
  obtain ⟨place, hresolve, hplace⟩ := isDirectory_iff_resolve.1 hdirectory
  have hspot : place = base.spot source ++ names := by
    have heq : place = s.spot (along source names) := eq_spot_of_resolve hresolve
    rw [heq, spot_congr hgrows.workDir, hextends.spot_eq]
  rw [← hspot] at hthere
  exact isDirectory_iff_resolve.2 ⟨place, hextends.resolve_found_of_grown
    (isRoot_of_isDirectory hsource).leadsTo hgrows hresolve hthere,
    hgrows.lookup_of_directory hthere hplace⟩

/-- What is listed in a directory on the tour was there in the beginning, or has been made since. -/
theorem explained_of_list (hsource : base.isDirectory source = true) {before : List Stop}
    (hs : Reached base target before s) (hnames : ∀ name ∈ names, IsName name)
    (hbefore : ∀ stop ∈ before, stop.1 < names)
    (hexplained : Explained base source target before (names, true))
    {entries : List (String × Bool)} (hlist : s.list (along source names) = .ok entries)
    {isDirectory : Bool} (hentry : (name, isDirectory) ∈ entries) :
    Explained base source target (before ++ [(names, true)]) (names ++ [name], isDirectory) := by
  have hgrows := hs.grows.grows
  have hplace : s.spot (along source names) ++ [name] = base.spot source ++ (names ++ [name]) := by
    rw [spot_congr hgrows.workDir, (extends_along hnames source).spot_eq, List.append_assoc]
  obtain ⟨hthere, hkind⟩ := (mem_entries_iff hlist).1 hentry
  rw [hplace] at hthere hkind
  by_cases hnone : base.lookup (base.spot source ++ (names ++ [name])) = none
  · obtain ⟨other, hother, hpasses⟩ := hs.made _ hnone hthere
    refine Or.inr ⟨hnone, by simp, other, List.mem_append_left _ hother, ?_, hpasses⟩
    rw [List.dropLast_concat]
    exact hbefore other hother
  · have habove : base.lookup (base.spot source ++ names) ≠ none := by
      rw [← List.append_assoc] at hnone
      simp [lookup_of_append (by simp) hnone]
    have hvisits : base.Visits source names := by
      rcases hexplained with hold | hown
      · exact hold.visits
      · exact absurd hown.free habove
    have hdirectory : base.isDirectory (along source names) = true :=
      isDirectory_along_of_grows hsource hgrows hnames habove
        (isDirectory_iff_exists_list.2 ⟨entries, hlist⟩)
    refine Or.inl ⟨⟨hnone, fun above hon hne => ?_⟩, ?_⟩
    · rcases List.prefix_concat_iff.1 hon with rfl | hon
      · exact absurd rfl hne
      · by_cases heq : above = names
        · rw [heq]
          exact hdirectory
        · exact hvisits.listed above hon heq
    · -- neither files nor directories turn into one another
      rw [hkind, Bool.eq_iff_iff, beq_iff_eq, beq_iff_eq]
      exact ⟨hgrows.lookup_of_directory hnone, hgrows.directory _⟩

/-! ## Tours in a file system that grows -/

/-- What a part of a tour comes to, with the stops before it. -/
structure Tours (base : FileSystem) (source target : String) (before stops : List Stop)
    (t : FileSystem) : Prop where
  reached : Reached base target (before ++ stops) t
  explained : ∀ stop ∈ stops, Explained base source target (before ++ stops) stop

theorem Reached.tours {before : List Stop} (h : Reached base target before s) {item : Item}
    {stop : Stop} {t : FileSystem} (hitem : item.stop? = some (stop.onto target))
    (hchanges : item.Changes s t) (hexplained : Explained base source target before stop) :
    Tours base source target before [stop] t := by
  refine ⟨h.step hitem hchanges, fun other hother => ?_⟩
  rw [List.mem_singleton.1 hother]
  exact hexplained.mono (List.subset_append_left _ _)

theorem Tours.append {before stops later : List Stop} {t : FileSystem}
    (h : Tours base source target before stops s)
    (h' : Tours base source target (before ++ stops) later t) :
    Tours base source target before (stops ++ later) t := by
  obtain ⟨hreached, hexplained⟩ := h'
  rw [List.append_assoc] at hreached hexplained
  refine ⟨hreached, fun stop hstop => ?_⟩
  rcases List.mem_append.1 hstop with hstop | hstop
  · refine (h.explained stop hstop).mono ?_
    rw [← List.append_assoc]
    exact List.subset_append_left _ _
  · exact hexplained stop hstop

/-- The legs for the names in a directory, each of which adds to the stops before it. -/
theorem tours_trail (names : List String) {entries : List (String × Bool)}
    {leg : String × Bool → Leg}
    (hleg : ∀ entry ∈ entries, ∀ before s, Reached base target before s →
      Explained base source target before (names ++ [entry.1], entry.2) →
      (∀ stop ∈ before, stop.1 < names ++ [entry.1]) →
      Tours base source target before ((leg entry).stops s) ((leg entry).step s).2)
    (hbegins : ∀ entry ∈ entries, ∀ fs, InOrder (names ++ [entry.1]) ((leg entry).stops fs))
    (hsorted : (entries.map Prod.fst).Pairwise (· < ·)) {before : List Stop}
    (hs : Reached base target before s)
    (hexplained : ∀ entry ∈ entries,
      Explained base source target before (names ++ [entry.1], entry.2))
    (hbefore : ∀ entry ∈ entries, ∀ stop ∈ before, stop.1 < names ++ [entry.1]) :
    Tours base source target before (trail (entries.map leg) s)
      (Step.seq ((entries.map leg).map Leg.step) s).2 := by
  induction entries generalizing before s with
  | nil =>
    refine ⟨?_, fun stop hstop => absurd hstop List.not_mem_nil⟩
    rw [List.map_nil, trail, List.append_nil]
    exact hs
  | cons entry entries ih =>
    rw [List.map_cons, List.pairwise_cons] at hsorted
    have hfirst := hleg entry List.mem_cons_self before s hs
      (hexplained entry List.mem_cons_self) (hbefore entry List.mem_cons_self)
    refine hfirst.append (ih (fun other hother => hleg other (List.mem_cons_of_mem _ hother))
      (fun other hother => hbegins other (List.mem_cons_of_mem _ hother)) hsorted.2 hfirst.reached
      (fun other hother => ?_) fun other hother stop hstop => ?_)
    · exact (hexplained other (List.mem_cons_of_mem _ hother)).mono (List.subset_append_left _ _)
    · rcases List.mem_append.1 hstop with hstop | hstop
      · exact hbefore other (List.mem_cons_of_mem _ hother) stop hstop
      · exact lt_of_prefixes (hsorted.1 _ (List.mem_map_of_mem hother))
          ((hbegins entry List.mem_cons_self s).begins stop hstop) List.prefix_rfl

theorem tours_makeCopy {before : List Stop} (hs : Reached base target before s)
    (hexplained : Explained base source target before (names, true)) :
    Tours base source target before [(names, true)] (makeCopy (along target names) s).2 :=
  hs.tours rfl (changes_makeCopy _ s) hexplained

/-- Every stop of a tour was there in the beginning, or has been made by the copying of a stop that
    comes before its directory. -/
theorem tours_tour (r : Runner) (hfs : base.WellFormed) (hsource : base.isDirectory source = true)
    (room : Nat) (hnames : ∀ name ∈ names, IsName name) {before : List Stop}
    (hs : Reached base target before s) (hbefore : ∀ stop ∈ before, stop.1 < names)
    (hexplained : Explained base source target before (names, true)) :
    Tours base source target before (r.tour source target room names s)
      (r.copyDirectory room (along source names) (along target names) s).2 := by
  induction room generalizing names before s with
  | zero =>
    rw [tour_zero]
    cases hlist : s.list (along source names) with
    | error cause =>
      rw [copyDirectory_of_error 0 hlist]
      exact tours_makeCopy hs hexplained
    | ok entries =>
      rw [copyDirectory_zero hlist]
      exact tours_makeCopy hs hexplained
  | succ room ih =>
    cases hlist : s.list (along source names) with
    | error cause =>
      rw [tour_of_error _ hlist, copyDirectory_of_error (room + 1) hlist]
      exact tours_makeCopy hs hexplained
    | ok entries =>
      have hmade := tours_makeCopy hs hexplained
      rw [tour_succ room hlist, copyDirectory_succ room hlist, ← map_step_entryLeg]
      have hlisted : ∀ entry ∈ entries, IsName entry.1 := fun entry hentry =>
        (hs.grows.wellFormed hfs).isName_of_list hlist hentry
      refine hmade.append (tours_trail names ?_ ?_ (pairwise_entries hlist) hmade.reached
        ?_ ?_)
      · rintro ⟨name, isDirectory⟩ hentry before' t ht hexplained' hbefore'
        have hnames' : ∀ other ∈ names ++ [name], IsName other := by
          intro other hother
          rcases List.mem_append.1 hother with hother | hother
          · exact hnames other hother
          · rw [List.mem_singleton.1 hother]
            exact hlisted _ hentry
        cases isDirectory with
        | true => exact ih hnames' ht hbefore' hexplained'
        | false => exact ht.tours rfl (changes_copyBytes r _ _ t) hexplained'
      · rintro ⟨name, isDirectory⟩ - fs
        cases isDirectory with
        | true => exact inOrder_tour r source target room _ fs
        | false => exact inOrder_singleton _ false
      · rintro ⟨name, isDirectory⟩ hentry
        exact explained_of_list hsource hs hnames hbefore hexplained hlist hentry
      · intro entry _ stop hstop
        rcases List.mem_append.1 hstop with hstop | hstop
        · exact (hbefore stop hstop).trans (lt_concat names entry.1)
        · rw [List.mem_singleton.1 hstop]
          exact lt_concat names entry.1

/-! ## What was there in the beginning is on the tour -/

theorem self_mem_tour (r : Runner) (source target : String) (room : Nat) (names : List String)
    (fs : FileSystem) : (names, true) ∈ r.tour source target room names fs := by
  cases room with
  | zero => simp [tour_zero]
  | succ room =>
    cases hlist : fs.list (along source names) with
    | error cause => simp [tour_of_error _ hlist]
    | ok entries => simp [tour_succ room hlist]

theorem growsWell_copyEntries (r : Runner) (room : Nat) (source target : String)
    (entries : List (String × Bool)) (fs : FileSystem) :
    GrowsWell fs (Step.seq (r.copyEntries room source target entries) fs).2 := by
  have hgrows := r.isInductive_growsWell
  refine hgrows.seq (fun step hstep => ?_) fs
  obtain ⟨name, ⟨-, rfl⟩ | ⟨-, rfl⟩⟩ := exists_of_mem_copyEntries hstep
  · exact hgrows.copyDirectory room _ _
  · exact growsWell_copyBytes r _ _

/-- The leg for a name begins where the names before it have led. -/
theorem exists_stops_of_mem_entries (r : Runner) (target : String) (room : Nat)
    {entries : List (String × Bool)} (hlist : s.list (along source names) = .ok entries)
    {entry : String × Bool} (hentry : entry ∈ entries) :
    ∃ t, GrowsWell s t ∧ ∀ stop ∈ (r.entryLeg source target room names entry).stops t,
      stop ∈ r.tour source target (room + 1) names s := by
  obtain ⟨earlier, later, hsplit⟩ := List.append_of_mem hentry
  set made := (makeCopy (along target names) s).2
  refine ⟨(Step.seq (r.copyEntries room (along source names) (along target names) earlier) made).2,
    (changes_makeCopy _ s).growsWell.trans (growsWell_copyEntries r room _ _ earlier made),
    fun stop hstop => ?_⟩
  rw [tour_succ room hlist, List.mem_cons, mem_trail_iff]
  refine Or.inr ⟨earlier.map (r.entryLeg source target room names),
    r.entryLeg source target room names entry,
    later.map (r.entryLeg source target room names), ?_, ?_⟩
  · rw [hsplit, List.map_append, List.map_cons]
  · rwa [map_step_entryLeg]

/-- Where a walk came in the beginning, the tour comes however the file system has grown by then. -/
theorem exists_mem_tour (r : Runner) (target : String) (room : Nat) (names : List String)
    {rest : List String} (hnames : ∀ name ∈ names ++ rest, IsName name)
    (hgrows : GrowsBelow [] base s) (hvisits : base.Visits source (names ++ rest))
    (hroom : pathLimit ≤ room + (along source names).utf8ByteSize) :
    ∃ isDirectory, (names ++ rest, isDirectory) ∈ r.tour source target room names s := by
  induction room generalizing names rest s with
  | zero =>
    cases rest with
    | nil =>
      rw [List.append_nil]
      exact ⟨true, self_mem_tour r source target 0 names s⟩
    | cons name rest =>
      -- the path is too long to be listed
      have hlisted := hvisits.listed names (List.prefix_append _ _) (by simp)
      have hshort := (isDirectory_iff.1 hlisted).1.2.2
      omega
  | succ room ih =>
    cases rest with
    | nil =>
      rw [List.append_nil]
      exact ⟨true, self_mem_tour r source target (room + 1) names s⟩
    | cons name rest =>
      have hname : IsName name := hnames name (by simp)
      have hlisted := hvisits.listed names (List.prefix_append _ _) (by simp)
      obtain ⟨entries, hlist⟩ :=
        isDirectory_iff_exists_list.1 (isDirectory_of_growsBelow hgrows hlisted)
      have hplace :
          s.spot (along source names) ++ [name] = base.spot source ++ names ++ [name] := by
        rw [spot_congr hgrows.workDir, (extends_along (fun other hother =>
          hnames other (List.mem_append_left _ hother)) source).spot_eq]
      have hbelow : base.lookup (base.spot source ++ names ++ [name] ++ rest) ≠ none := by
        simpa using hvisits.there
      have hthere := hgrows.lookup_ne_none (lookup_ne_none_above (List.prefix_append _ rest) hbelow)
      rw [← hplace] at hthere
      obtain ⟨t, ht, hleg⟩ := exists_stops_of_mem_entries r target room hlist
        ((mem_entries_iff hlist).2 ⟨hthere, rfl⟩)
      have hsplit : names ++ name :: rest = names ++ [name] ++ rest := by simp
      rw [hsplit] at hnames hvisits ⊢
      cases hkind : s.lookup (s.spot (along source names) ++ [name]) == some .directory with
      | true =>
        rw [hkind] at hleg
        have hlonger := lt_utf8ByteSize_join (along source names) hname
        rw [← along_concat] at hlonger
        obtain ⟨isDirectory, hmem⟩ := ih _ hnames (hgrows.trans ht.grows) hvisits (by omega)
        exact ⟨isDirectory, hleg _ hmem⟩
      | false =>
        rw [hkind] at hleg
        cases rest with
        | nil =>
          rw [List.append_nil]
          exact ⟨false, hleg _ (List.mem_singleton_self _)⟩
        | cons next rest =>
          -- nothing stands below what is no directory
          have hdirectory :=
            hgrows.directory _ (lookup_of_append (List.cons_ne_nil next rest) hbelow)
          rw [hplace, hdirectory] at hkind
          simp at hkind

/-! ## How many files are copied -/

theorem written_makeCopy (target : String) (fs : FileSystem) :
    (Report.ofEvents (makeCopy target fs).1).written = 0 := by
  unfold makeCopy
  split <;> rfl

theorem written_copyBytes_le (r : Runner) (source target : String) (fs : FileSystem) :
    (Report.ofEvents (r.copyBytes source target fs).1).written ≤ 1 := by
  have htotal := total_copyBytes r source target fs
  unfold Report.total at htotal
  omega

theorem written_seq_cons (step : Step) (steps : List Step) (fs : FileSystem) :
    (Report.ofEvents (Step.seq (step :: steps) fs).1).written =
      (Report.ofEvents (step fs).1).written +
        (Report.ofEvents (Step.seq steps (step fs).2).1).written := by
  rw [Step.seq, Report.ofEvents_append]
  rfl

theorem written_makeCopy_skip (target : String) (error : Error) (fs : FileSystem) :
    (Report.ofEvents (Step.seq [makeCopy target, Step.skip error] fs).1).written = 0 := by
  rw [written_seq_cons, written_makeCopy]
  rfl

/-- How many of the stops are taken for files. -/
def fileCount (stops : List Stop) : Nat :=
  stops.countP fun stop => !stop.2

theorem written_trail_le {legs : List Leg}
    (h : ∀ leg ∈ legs, ∀ fs,
      (Report.ofEvents (leg.step fs).1).written ≤ fileCount (leg.stops fs)) (fs : FileSystem) :
    (Report.ofEvents (Step.seq (legs.map Leg.step) fs).1).written ≤ fileCount (trail legs fs) := by
  induction legs generalizing fs with
  | nil => exact Nat.zero_le _
  | cons leg legs ih =>
    have hfirst := h leg List.mem_cons_self fs
    have hlater := ih (fun other hother => h other (List.mem_cons_of_mem _ hother)) (leg.step fs).2
    unfold fileCount at *
    rw [List.map_cons, written_seq_cons, trail, List.countP_append]
    omega

/-- No more files are copied than are on the tour. -/
theorem written_copyDirectory_le (r : Runner) (source target : String) (room : Nat)
    (names : List String) (fs : FileSystem) :
    (Report.ofEvents
        (r.copyDirectory room (along source names) (along target names) fs).1).written ≤
      fileCount (r.tour source target room names fs) := by
  induction room generalizing names fs with
  | zero =>
    cases hlist : fs.list (along source names) with
    | error cause =>
      rw [copyDirectory_of_error 0 hlist, written_makeCopy_skip]
      exact Nat.zero_le _
    | ok entries =>
      rw [copyDirectory_zero hlist, written_makeCopy]
      exact Nat.zero_le _
  | succ room ih =>
    cases hlist : fs.list (along source names) with
    | error cause =>
      rw [copyDirectory_of_error (room + 1) hlist, written_makeCopy_skip]
      exact Nat.zero_le _
    | ok entries =>
      rw [copyDirectory_succ room hlist, tour_succ room hlist, written_seq_cons, written_makeCopy,
        ← map_step_entryLeg, Nat.zero_add]
      have hcount : ∀ stops : List Stop, fileCount ((names, true) :: stops) = fileCount stops :=
        fun stops => by simp [fileCount]
      rw [hcount]
      refine written_trail_le (fun leg hleg fs => ?_) _
      obtain ⟨⟨name, isDirectory⟩, -, rfl⟩ := List.mem_map.1 hleg
      cases isDirectory with
      | true => exact ih (names ++ [name]) fs
      | false => exact written_copyBytes_le r _ _ fs

end Runner

end Scaffold
