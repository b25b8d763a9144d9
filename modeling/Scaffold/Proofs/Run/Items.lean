import Scaffold.Proofs.Run.Growing

set_option autoImplicit false

/-! # The items of a run

A run works off one item after the other: it makes a directory, copies a file, writes a filtered
file or passes something over. Which items come up depends on what is there when a directory is
reached, so they are read off the file system as they are worked off (`items`), and the run is
nothing but the performing of them (`run_eq_performAll`). Where the paths of the operations are
within some bounds that names do not lead out of, so are the paths of all items
(`isWithin_items`). -/

namespace Scaffold

open FileSystem

theorem Step.seq_append (before after : List Step) (fs : FileSystem) :
    Step.seq (before ++ after) fs =
      ((Step.seq before fs).1 ++ (Step.seq after (Step.seq before fs).2).1,
        (Step.seq after (Step.seq before fs).2).2) := by
  induction before generalizing fs with
  | nil => rfl
  | cons step before ih =>
    simp only [List.cons_append, Step.seq, ih, List.append_assoc]

namespace Runner

/-- What a run does in one go. -/
inductive Item
  /-- Tells that an operation begins. -/
  | start (op : Operation)
  /-- Passes over something that cannot be read. -/
  | skip (error : Error)
  /-- Makes the copy of a directory, without what is in it. -/
  | directory (target : String)
  /-- Copies a file as it is. -/
  | copy (source target : String)
  /-- Writes the filtered text of a file. -/
  | filter (source target : String)
  deriving DecidableEq, Repr

/-- Works off an item. -/
def perform (r : Runner) : Item → Step
  | .start op => fun fs => ([.started op], fs)
  | .skip error => Step.skip error
  | .directory target => makeCopy target
  | .copy source target => r.copyBytes source target
  | .filter source target => r.filterFile source target

/-- Works off the items one after the other. -/
def performAll (r : Runner) (items : List Item) : Step :=
  Step.seq (items.map r.perform)

/-- The items that come up in a file system. -/
abbrev Script := FileSystem → List Item

/-- The items of the scripts, each of which is read where the items before it have led. -/
def gather (r : Runner) : List Script → Script
  | [], _ => []
  | script :: scripts, fs =>
    script fs ++ r.gather scripts (r.performAll (script fs) fs).2

/-- The items of the copying of a directory. -/
def directoryItems (r : Runner) : Nat → (source target : String) → Script
  | room, source, target => fun fs =>
    match fs.list source with
    | .error cause => [.directory target, .skip (.read source (.listing source cause))]
    | .ok entries =>
      match room with
      | 0 => [.directory target]
      | room + 1 =>
        r.gather
          ((fun _ => [.directory target]) :: entries.map fun (name, isDirectory) =>
            if isDirectory then
              r.directoryItems room (Path.join source name) (Path.join target name)
            else fun _ => [.copy (Path.join source name) (Path.join target name)])
          fs

/-- The path that an operation takes something from. -/
def sourceOf (r : Runner) (op : Operation) : String :=
  op.transfer.source.below r.templateRoot

/-- The path that an operation puts something at. -/
def targetOf (r : Runner) (op : Operation) : String :=
  op.transfer.target.below r.outputRoot

/-- The items of an operation. -/
def operationItems (r : Runner) (op : Operation) : Script := fun fs =>
  .start op ::
    match op.kind with
    | .copySubtree =>
      if fs.isDirectory (r.sourceOf op) then
        r.directoryItems pathLimit (r.sourceOf op) (Path.join (r.targetOf op) "") fs
      else [.skip (.sourceNotFound (r.sourceOf op))]
    | .copyFile =>
      if fs.isFile (r.sourceOf op) then [.copy (r.sourceOf op) (r.targetOf op)]
      else [.skip (.sourceNotFound (r.sourceOf op))]
    | .filterFile => [.filter (r.sourceOf op) (r.targetOf op)]

/-- The items of a run. -/
def items (r : Runner) (set : OperationSet) : Script :=
  r.gather (set.operations.map r.operationItems)

variable {r : Runner}

/-- The copy of a directory is told to start, and then the directory is gone through. -/
theorem runOperation_of_copySubtree {op : Operation} {fs : FileSystem}
    (hkind : op.kind = .copySubtree) (hsource : fs.isDirectory (r.sourceOf op) = true) :
    r.runOperation op fs =
      (.started op ::
        (r.copyDirectory pathLimit (r.sourceOf op) (Path.join (r.targetOf op) "") fs).1,
        (r.copyDirectory pathLimit (r.sourceOf op) (Path.join (r.targetOf op) "") fs).2) := by
  have hwork : r.work op fs =
      r.copyDirectory pathLimit (r.sourceOf op) (Path.join (r.targetOf op) "") fs := by
    unfold work
    simp only [hkind]
    exact if_pos hsource
  rw [runOperation_eq]
  simp only [Step.seq, hwork, List.append_nil]
  rfl

theorem performAll_nil (r : Runner) (fs : FileSystem) : r.performAll [] fs = ([], fs) := rfl

theorem performAll_cons (r : Runner) (item : Item) (items : List Item) (fs : FileSystem) :
    r.performAll (item :: items) fs =
      ((r.perform item fs).1 ++ (r.performAll items (r.perform item fs).2).1,
        (r.performAll items (r.perform item fs).2).2) := rfl

theorem performAll_append (r : Runner) (before after : List Item) (fs : FileSystem) :
    r.performAll (before ++ after) fs =
      ((r.performAll before fs).1 ++ (r.performAll after (r.performAll before fs).2).1,
        (r.performAll after (r.performAll before fs).2).2) := by
  unfold performAll
  rw [List.map_append, Step.seq_append]

theorem performAll_singleton (r : Runner) (item : Item) (fs : FileSystem) :
    r.performAll [item] fs = r.perform item fs := by
  rw [performAll_cons, performAll_nil, List.append_nil]

/-- What comes up behind the start of an operation: an error, its file, its directory or its text. -/
theorem operationItems_cases (r : Runner) (op : Operation) (fs : FileSystem) :
    ∃ items, r.operationItems op fs = .start op :: items ∧
      (items = [.skip (.sourceNotFound (r.sourceOf op))] ∨
        (fs.isFile (r.sourceOf op) = true ∧ items = [.copy (r.sourceOf op) (r.targetOf op)]) ∨
        items = r.directoryItems pathLimit (r.sourceOf op) (Path.join (r.targetOf op) "") fs ∨
        items = [.filter (r.sourceOf op) (r.targetOf op)]) := by
  refine ⟨_, rfl, ?_⟩
  cases op.kind with
  | copySubtree =>
    dsimp only
    split
    · exact Or.inr (Or.inr (Or.inl rfl))
    · exact Or.inl rfl
  | copyFile =>
    dsimp only
    split
    · next hfile => exact Or.inr (Or.inl ⟨hfile, rfl⟩)
    · exact Or.inl rfl
  | filterFile => exact Or.inr (Or.inr (Or.inr rfl))

/-! ## A run is the performing of its items -/

/-- The step performs the items of the script. -/
def Performs (r : Runner) (script : Script) (step : Step) : Prop :=
  ∀ fs, step fs = r.performAll (script fs) fs

theorem performs_gather {scripts : List Script} {steps : List Step}
    (h : List.Forall₂ r.Performs scripts steps) : r.Performs (r.gather scripts) (Step.seq steps) := by
  induction h with
  | nil => exact fun fs => rfl
  | @cons script step scripts steps hstep _ ih =>
    intro fs
    rw [gather, performAll_append, ← hstep fs, ← ih (step fs).2]
    rfl

theorem performs_perform (item : Item) : r.Performs (fun _ => [item]) (r.perform item) :=
  fun fs => (performAll_singleton r item fs).symm

theorem directoryItems_of_error (room : Nat) {source : String} {fs : FileSystem} {cause : Cause}
    (h : fs.list source = .error cause) (target : String) :
    r.directoryItems room source target fs =
      [.directory target, .skip (.read source (.listing source cause))] := by
  unfold directoryItems
  rw [h]

theorem directoryItems_zero {source : String} {fs : FileSystem} {entries : List (String × Bool)}
    (h : fs.list source = .ok entries) (target : String) :
    r.directoryItems 0 source target fs = [.directory target] := by
  unfold directoryItems
  rw [h]

/-- The items of what a directory holds, one script for each name. -/
def entryScripts (r : Runner) (room : Nat) (source target : String)
    (entries : List (String × Bool)) : List Script :=
  entries.map fun (name, isDirectory) =>
    if isDirectory then r.directoryItems room (Path.join source name) (Path.join target name)
    else fun _ => [.copy (Path.join source name) (Path.join target name)]

theorem directoryItems_succ (room : Nat) {source : String} {fs : FileSystem}
    {entries : List (String × Bool)} (h : fs.list source = .ok entries) (target : String) :
    r.directoryItems (room + 1) source target fs =
      r.gather ((fun _ => [.directory target]) :: r.entryScripts room source target entries) fs := by
  rw [directoryItems]
  simp only [h]
  rfl

theorem performs_directoryItems (room : Nat) (source target : String) :
    r.Performs (r.directoryItems room source target) (r.copyDirectory room source target) := by
  induction room generalizing source target with
  | zero =>
    intro fs
    cases hlist : fs.list source with
    | error cause =>
      rw [directoryItems_of_error 0 hlist, copyDirectory_of_error 0 hlist]
      rfl
    | ok entries =>
      rw [directoryItems_zero hlist, copyDirectory_zero hlist, performAll_singleton]
      rfl
  | succ room ih =>
    intro fs
    cases hlist : fs.list source with
    | error cause =>
      rw [directoryItems_of_error (room + 1) hlist, copyDirectory_of_error (room + 1) hlist]
      rfl
    | ok entries =>
      rw [directoryItems_succ room hlist, copyDirectory_succ room hlist]
      refine performs_gather (.cons (performs_perform (.directory target)) ?_) fs
      unfold entryScripts copyEntries
      rw [List.forall₂_map_left_iff, List.forall₂_map_right_iff, List.forall₂_same]
      rintro ⟨name, isDirectory⟩ -
      cases isDirectory with
      | true => exact ih _ _
      | false => exact performs_perform (.copy _ _)

theorem performs_operationItems (op : Operation) :
    r.Performs (r.operationItems op) (r.runOperation op) := by
  intro fs
  have hstart : ∀ items, r.performAll (.start op :: items) fs =
      (.started op :: (r.performAll items fs).1, (r.performAll items fs).2) := fun items => rfl
  have hwork : r.runOperation op fs =
      (.started op :: (r.work op fs).1, (r.work op fs).2) := by
    rw [runOperation_eq]
    simp only [Step.seq, List.append_nil]
    rfl
  unfold operationItems
  rw [hstart, hwork]
  unfold work
  rw [← sourceOf, ← targetOf]
  cases op.kind with
  | copySubtree =>
    dsimp only
    unfold copySubtree
    split
    · rw [performs_directoryItems]
    · rw [performAll_singleton]
      rfl
  | copyFile =>
    dsimp only
    unfold copyFile
    split
    · rw [performAll_singleton]
      rfl
    · rw [performAll_singleton]
      rfl
  | filterFile =>
    dsimp only
    rw [performAll_singleton]
    rfl

theorem performs_operations (r : Runner) (ops : List Operation) :
    r.Performs (r.gather (ops.map r.operationItems)) (Step.seq (ops.map r.runOperation)) := by
  refine performs_gather ?_
  rw [List.forall₂_map_left_iff, List.forall₂_map_right_iff, List.forall₂_same]
  exact fun op _ => performs_operationItems op

/-- A run performs its items, and nothing else. -/
theorem run_eq_performAll (r : Runner) (set : OperationSet) (fs : FileSystem) :
    r.run set fs = r.performAll (r.items set fs) fs :=
  performs_operations r set.operations fs

/-! ## What an item can change -/

/-- The path that the item puts a file at. -/
def Item.file? : Item → Option String
  | .start _ | .skip _ | .directory _ => none
  | .copy _ target | .filter _ target => some target

/-- What the file system can be after an item: what it was, or with directories made, and perhaps
    with a file written then. -/
inductive Item.Changes (fs : FileSystem) : Item → FileSystem → Prop
  | nothing (item : Item) : Changes fs item fs
  | directory (target : String) : Changes fs (.directory target) (fs.makeDirectories target).2
  | parent {item : Item} {target : String} (htarget : item.file? = some target) :
      Changes fs item (fs.makeParent target).2
  | file {item : Item} {target : String} {place : List String} {bytes : ByteArray}
      {done : FileSystem} (htarget : item.file? = some target)
      (hopens : (fs.makeParent target).2.Opens target place)
      (hwrites : Writes place bytes (fs.makeParent target).2 done) : Changes fs item done

/-- Nothing is taken away. -/
theorem Item.Changes.growsWell {fs done : FileSystem} {item : Item} (h : item.Changes fs done) :
    GrowsWell fs done := by
  cases h with
  | nothing => exact .refl fs
  | directory target => exact .of_makeDirectories fs target
  | parent htarget => exact .of_makeParent fs _
  | file htarget hopens hwrites =>
    exact (GrowsWell.of_makeParent fs _).trans (.of_writes hopens hwrites)

theorem changes_makeCopy (target : String) (fs : FileSystem) :
    (Item.directory target).Changes fs (makeCopy target fs).2 := by
  rw [makeCopy_eq]
  exact .directory target

theorem changes_copyBytes (r : Runner) (source target : String) (fs : FileSystem) :
    (Item.copy source target).Changes fs (r.copyBytes source target fs).2 := by
  rcases copyBytes_cases r source target fs with
    ⟨-, -, hskip⟩ | ⟨-, ⟨cause, hskip⟩ | ⟨place, bytes, done, hopens, hwrites, hcopy⟩⟩
  · rw [hskip]
    exact .nothing _
  · rw [hskip]
    exact .parent rfl
  · rw [hcopy]
    exact .file rfl hopens hwrites

theorem changes_filterFile (r : Runner) (source target : String) (fs : FileSystem) :
    (Item.filter source target).Changes fs (r.filterFile source target fs).2 := by
  cases hfile : fs.isFile source with
  | false =>
    rw [filterFile_of_not_isFile hfile]
    exact .nothing _
  | true =>
    cases hread : readSource fs source with
    | error cause =>
      rw [filterFile_of_error hfile hread]
      exact .nothing _
    | ok text =>
      rw [filterFile_of_text hfile hread]
      rcases putFile_cases target (r.filteredBytes target text) fs with
        ⟨cause, hskip⟩ | ⟨place, hopens, hput⟩
      · rw [hskip]
        exact .parent rfl
      · rw [hput]
        exact .file rfl hopens (hopens.writes_put _)

theorem changes_perform (r : Runner) (item : Item) (fs : FileSystem) :
    item.Changes fs (r.perform item fs).2 := by
  cases item with
  | start op => exact .nothing _
  | skip error => exact .nothing _
  | directory target => exact changes_makeCopy target fs
  | copy source target => exact changes_copyBytes r source target fs
  | filter source target => exact changes_filterFile r source target fs

theorem growsWell_performAll (r : Runner) (items : List Item) (fs : FileSystem) :
    GrowsWell fs (r.performAll items fs).2 := by
  induction items generalizing fs with
  | nil => exact .refl fs
  | cons item items ih =>
    rw [performAll_cons]
    exact (changes_perform r item fs).growsWell.trans (ih _)

/-! ## Bounds -/

/-- Which paths items may go to and come from. Whoever is there stays there along names. -/
structure Bounds where
  /-- Where directories may be made. -/
  directory : String → Prop
  /-- Where files may be put. -/
  file : String → Prop
  /-- Where files may be taken from. -/
  source : String → Prop
  directory_join : ∀ path name, directory path → IsName name → directory (Path.join path name)
  file_join : ∀ path name, directory path → IsName name → file (Path.join path name)
  source_join : ∀ path name, source path → IsName name → source (Path.join path name)

/-- The item goes to and comes from paths within the bounds, and if it passes something over it says
    so by the error of an item. -/
def Item.IsWithin (bounds : Bounds) : Item → Prop
  | .start _ => True
  | .skip error => error.isItemError = true
  | .directory target => bounds.directory target
  | .copy source target => bounds.source source ∧ bounds.file target
  | .filter source target => bounds.source source ∧ bounds.file target

theorem Item.IsWithin.file {bounds : Bounds} {item : Item} (h : item.IsWithin bounds)
    {target : String} (htarget : item.file? = some target) : bounds.file target := by
  cases item with
  | start op => simp [Item.file?] at htarget
  | skip error => simp [Item.file?] at htarget
  | directory other => simp [Item.file?] at htarget
  | copy source other => exact Option.some.inj htarget ▸ h.2
  | filter source other => exact Option.some.inj htarget ▸ h.2

/-- What is within bounds is within wider ones. -/
theorem Item.IsWithin.mono {bounds wider : Bounds} {item : Item} (h : item.IsWithin bounds)
    (hdirectory : ∀ path, bounds.directory path → wider.directory path)
    (hfile : ∀ path, bounds.file path → wider.file path)
    (hsource : ∀ path, bounds.source path → wider.source path) : item.IsWithin wider := by
  cases item with
  | start op => trivial
  | skip error => exact h
  | directory target => exact hdirectory target h
  | copy source target => exact ⟨hsource source h.1, hfile target h.2⟩
  | filter source target => exact ⟨hsource source h.1, hfile target h.2⟩

variable {bounds : Bounds}

/-- The paths of the operation are within the bounds. -/
structure Admits (r : Runner) (bounds : Bounds) (op : Operation) : Prop where
  source : bounds.source (r.sourceOf op)
  file : bounds.file (r.targetOf op)
  directory : bounds.directory (Path.join (r.targetOf op) "")

/-- All items of the script are within the bounds. -/
def Stays (bounds : Bounds) (script : Script) : Prop :=
  ∀ fs : FileSystem, fs.WellFormed → ∀ item ∈ script fs, item.IsWithin bounds

theorem stays_gather {scripts : List Script} (h : ∀ script ∈ scripts, Stays bounds script) :
    Stays bounds (r.gather scripts) := by
  induction scripts with
  | nil => exact fun fs _ item hitem => absurd hitem List.not_mem_nil
  | cons script scripts ih =>
    intro fs hfs item hitem
    rcases List.mem_append.1 hitem with hitem | hitem
    · exact h script List.mem_cons_self fs hfs item hitem
    · refine ih (fun other hother => h other (List.mem_cons_of_mem _ hother)) _ ?_ item hitem
      exact (growsWell_performAll r (script fs) fs).wellFormed hfs

theorem isWithin_of_unlisted {source target : String} {cause : Cause} {item : Item}
    (htarget : bounds.directory target)
    (hitem : item ∈ [Item.directory target, .skip (.read source cause)]) :
    item.IsWithin bounds := by
  simp only [List.mem_cons, List.not_mem_nil, or_false] at hitem
  rcases hitem with rfl | rfl
  · exact htarget
  · exact rfl

/-- The scripts of a directory stay within the bounds, if those of the directories in it do: what was
    listed are names, and they do not lead out. -/
theorem stays_entries {room : Nat} {source target : String} {entries : List (String × Bool)}
    (hroom : ∀ {source target : String}, bounds.source source → bounds.directory target →
      Stays bounds (r.directoryItems room source target))
    (hsource : bounds.source source) (htarget : bounds.directory target)
    (hnames : ∀ {name : String} {isDirectory : Bool}, (name, isDirectory) ∈ entries → IsName name) :
    ∀ script ∈ (fun _ => [.directory target]) :: r.entryScripts room source target entries,
      Stays bounds script := by
  intro script hscript
  rcases List.mem_cons.1 hscript with rfl | hscript
  · intro _ _ item hitem
    rw [List.mem_singleton.1 hitem]
    exact htarget
  obtain ⟨⟨name, isDirectory⟩, hentry, rfl⟩ := List.mem_map.1 hscript
  have hname := hnames hentry
  have hfrom := bounds.source_join _ _ hsource hname
  cases isDirectory with
  | true => exact hroom hfrom (bounds.directory_join _ _ htarget hname)
  | false =>
    intro _ _ item hitem
    rw [List.mem_singleton.1 hitem]
    exact ⟨hfrom, bounds.file_join _ _ htarget hname⟩

theorem stays_directoryItems (room : Nat) {source target : String} (hsource : bounds.source source)
    (htarget : bounds.directory target) :
    Stays bounds (r.directoryItems room source target) := by
  induction room generalizing source target with
  | zero =>
    intro fs _ item hitem
    cases hlist : fs.list source with
    | error cause =>
      rw [directoryItems_of_error 0 hlist] at hitem
      exact isWithin_of_unlisted htarget hitem
    | ok entries =>
      rw [directoryItems_zero hlist, List.mem_singleton] at hitem
      rw [hitem]
      exact htarget
  | succ room ih =>
    intro fs hfs item hitem
    cases hlist : fs.list source with
    | error cause =>
      rw [directoryItems_of_error (room + 1) hlist] at hitem
      exact isWithin_of_unlisted htarget hitem
    | ok entries =>
      rw [directoryItems_succ room hlist] at hitem
      exact stays_gather (stays_entries ih hsource htarget (hfs.isName_of_list hlist)) fs hfs item
        hitem

theorem stays_operationItems {op : Operation} (h : r.Admits bounds op) :
    Stays bounds (r.operationItems op) := by
  intro fs hfs item hitem
  obtain ⟨items, heq, hitems⟩ := operationItems_cases r op fs
  rw [heq] at hitem
  rcases List.mem_cons.1 hitem with rfl | hitem
  · trivial
  rcases hitems with rfl | ⟨-, rfl⟩ | rfl | rfl
  · rw [List.mem_singleton.1 hitem]
    exact rfl
  · rw [List.mem_singleton.1 hitem]
    exact ⟨h.source, h.file⟩
  · exact stays_directoryItems pathLimit h.source h.directory fs hfs item hitem
  · rw [List.mem_singleton.1 hitem]
    exact ⟨h.source, h.file⟩

theorem stays_operations {ops : List Operation} (h : ∀ op ∈ ops, r.Admits bounds op) :
    Stays bounds (r.gather (ops.map r.operationItems)) := by
  refine stays_gather fun script hscript => ?_
  obtain ⟨op, hop, rfl⟩ := List.mem_map.1 hscript
  exact stays_operationItems (h op hop)

/-- Where the operations are within the bounds, all items are. -/
theorem isWithin_items {set : OperationSet} (hset : ∀ op ∈ set.operations, r.Admits bounds op)
    {fs : FileSystem} (hfs : fs.WellFormed) : ∀ item ∈ r.items set fs, item.IsWithin bounds :=
  stays_operations hset fs hfs

end Runner

end Scaffold
