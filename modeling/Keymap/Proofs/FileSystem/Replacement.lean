import Keymap.Proofs.FileSystem.Staging

/-!
# Replacing files, all or none

Renaming puts a file into a place where no directory stands, and undoing gives the place
back what it held. Neither changes directories, so that all paths lead where they led when
the contents were saved. A run that fails has therefore given back what every place held,
and a run that succeeds has put the last text for each place into it.
-/

namespace Keymap.Disk

variable {disk other : Disk} {path : String} {location : Location}

/-- The location to which a path leads, if a file can stand or be put there. -/
def fileAt? (disk : Disk) (path : String) : Option Location :=
  match disk.place path with
  | .ok (.named location false) => some location
  | _ => none

/-- A file is found at a path exactly where the path leads to it. -/
theorem fileAt?_eq_some_iff : disk.fileAt? path = some location ↔ disk.Leads path location := by
  rw [fileAt?, Leads]
  split
  next found hplace =>
    rw [hplace, Option.some.injEq, Except.ok.injEq, Place.named.injEq]
    simp
  next hother =>
    constructor
    · intro h
      cases h
    · exact fun h => absurd h (hother location)

/-- The last of some targets whose path leads to a location. -/
def lastFor? (disk : Disk) (targets : List Target) (location : Location) : Option Target :=
  targets.reverse.find? fun target => decide (disk.fileAt? target.path = some location)

/-- The last target for a place is one of the later ones, or else the first one. -/
theorem lastFor?_cons (disk : Disk) (target : Target) (rest : List Target)
    (location : Location) : disk.lastFor? (target :: rest) location =
      (disk.lastFor? rest location).or
        (if disk.fileAt? target.path = some location then some target else none) := by
  rw [lastFor?, List.reverse_cons, List.find?_append, lastFor?, List.find?_singleton]
  simp only [decide_eq_true_eq]

/-- Two disks have the same directories, so that paths lead to the same places. -/
def Alike (disk other : Disk) : Prop := disk.Within other ∧ other.Within disk

namespace Alike

theorem refl (disk : Disk) : disk.Alike disk := ⟨⟨rfl, fun _ h => h⟩, rfl, fun _ h => h⟩

theorem trans {last : Disk} (h : disk.Alike other) (h' : other.Alike last) : disk.Alike last :=
  ⟨h.1.trans h'.1, h'.2.trans h.2⟩

theorem leads_iff (h : disk.Alike other) : other.Leads path location ↔ disk.Leads path location :=
  ⟨h.2.leads, h.1.leads⟩

/-- Disks that are alike have the same directories. -/
theorem lookup_eq_directory_iff (h : disk.Alike other) :
    other.lookup location = some .directory ↔ disk.lookup location = some .directory :=
  ⟨h.2.directories location, h.1.directories location⟩

theorem fileAt? (h : disk.Alike other) (path : String) :
    other.fileAt? path = disk.fileAt? path := by
  ext location
  rw [fileAt?_eq_some_iff, fileAt?_eq_some_iff, h.leads_iff]

/-- The last target for a place is the same on disks that are alike. -/
theorem lastFor? (h : disk.Alike other) (targets : List Target) (location : Location) :
    other.lastFor? targets location = disk.lastFor? targets location := by
  simp only [Disk.lastFor?, h.fileAt?]

end Alike

section Files

/-- A place has been given other contents, or none; no other file and no directory has changed. -/
structure Sets (disk other : Disk) (location : Location) (held : Option ByteArray) : Prop where
  alike : disk.Alike other
  contents : ∀ place, other.contents? place =
    if place = location then held else disk.contents? place

/-- Where only one place holds something else, and neither before nor after it is a directory,
it has been given other contents. -/
theorem Sets.of_lookup {held : Option ByteArray} (hfree : disk.lookup location ≠ some .directory)
    (hcurrent : other.current = disk.current)
    (hlookup : ∀ place, other.lookup place =
      if place = location then held.map .file else disk.lookup place) :
    disk.Sets other location held where
  alike := by
    have hdirectory : ∀ place, other.lookup place = some .directory ↔
        disk.lookup place = some .directory := by
      intro place
      rw [hlookup]
      by_cases he : place = location
      · rw [if_pos he, he]
        cases held <;> simp [hfree]
      · rw [if_neg he]
    exact ⟨⟨hcurrent, fun place => (hdirectory place).mpr⟩,
      hcurrent.symm, fun place => (hdirectory place).mp⟩
  contents place := by
    rw [contents?, hlookup]
    by_cases he : place = location
    · rw [if_pos he, if_pos he]
      cases held <;> rfl
    · rw [if_neg he, if_neg he, contents?]

/-- A place that holds nothing has been given nothing. -/
theorem sets_self (hnone : disk.contents? location = none) : disk.Sets disk location none where
  alike := .refl disk
  contents place := by
    split
    next he => rw [he, hnone]
    next => rfl

/-- Undoing gives a place back what was saved of it. -/
theorem sets_undo {faults : Nat → Option IoFault} {prepared : Prepared Nat}
    (hleads : disk.Leads prepared.path location)
    (hfree : disk.lookup location ≠ some .directory) :
    disk.Sets (((fileSystem faults).undo prepared).run disk).2 location prepared.previous ∧
      (((fileSystem faults).undo prepared).run disk).2.prepared = disk.prepared := by
  rw [FileSystem.undo]
  cases prepared.previous with
  | some contents =>
    have hrun : (((fileSystem faults).restore prepared.path contents).run disk).2 =
        disk.put location (.file contents) := by
      change disk.restore prepared.path contents = _
      rw [restore, show disk.place prepared.path = .ok (.named location false) from hleads]
      exact if_neg hfree
    dsimp only
    rw [hrun]
    exact ⟨.of_lookup hfree rfl (lookup_put disk hleads.ne_nil _), rfl⟩
  | none =>
    have hrun : (((fileSystem faults).remove prepared.path).run disk).2 =
        disk.remove prepared.path := rfl
    dsimp only
    rw [hrun, remove, hleads.find]
    cases hentry : disk.lookup location with
    | none => exact ⟨sets_self (by rw [contents?, hentry]), rfl⟩
    | some entry =>
      cases entry with
      | directory => exact absurd hentry hfree
      | file contents => exact ⟨.of_lookup hfree rfl (lookup_erase disk hleads.ne_nil), rfl⟩

/-- A renamed file stands at the place of the path, and nothing is prepared under its number. -/
theorem ensures_rename {faults : Nat → Option IoFault} (disk : Disk) (file : Nat)
    (path : String) :
    Ensures ((fileSystem faults).rename file path) disk
      (fun _ after => ∃ location contents, disk.prepared.lookup file = some contents ∧
        disk.Leads path location ∧ disk.lookup location ≠ some .directory ∧
        disk.Sets after location (some contents) ∧ after.prepared = (disk.drop file).prepared)
      (fun _ after => disk.Idle after) := by
  have hstep : (fileSystem faults).rename file path =
      step faults fun disk => return (← disk.rename file path, ()) := rfl
  rw [hstep]
  refine ensures_step (fun _ => ⟨_, rfl⟩) fun after _ haction => ?_
  obtain ⟨renamed, hrenamed, hafter⟩ := bind_eq_ok_iff.mp haction
  cases hafter
  rw [Disk.rename] at hrenamed
  split at hrenamed
  next => cases hrenamed
  next contents hprepared =>
    obtain ⟨place, hplace, hrenamed⟩ := bind_eq_ok_iff.mp hrenamed
    split at hrenamed
    next => cases hrenamed
    next => cases hrenamed
    next location =>
      split at hrenamed
      next => cases hrenamed
      next hfree =>
        cases hrenamed
        have hleads : disk.Leads path location := by
          refine Within.leads ?_ hplace
          exact ⟨rfl, fun _ h => h⟩
        exact ⟨location, contents, hprepared, hleads, hfree,
          .of_lookup hfree rfl (lookup_put _ hleads.ne_nil _), rfl⟩

end Files

section Installation

variable {faults : Nat → Option IoFault} {base : List (Nat × ByteArray)} {staged : List Staged}

/-- Files are prepared for some targets, each under a number of its own. -/
structure Ready (disk : Disk) (base : List (Nat × ByteArray)) (staged : List Staged) : Prop where
  prepared : disk.prepared = base ++ staged.map Staged.entry
  fresh : ∀ s ∈ staged, ∀ entry ∈ base, entry.1 ≠ s.file
  distinct : (staged.map (·.file)).Nodup

/-- Without the first prepared file, those of the other targets are left. -/
theorem Ready.drop {s : Staged} (h : disk.Ready base (s :: staged)) :
    (disk.drop s.file).prepared = base ++ staged.map Staged.entry := by
  have hdistinct := List.nodup_cons.mp h.distinct
  have hbase : ∀ entry ∈ base, decide (entry.1 ≠ s.file) = true := fun entry hentry =>
    decide_eq_true (h.fresh s (List.mem_cons_self ..) entry hentry)
  have hrest : ∀ entry ∈ staged.map Staged.entry, decide (entry.1 ≠ s.file) = true := by
    rw [List.forall_mem_map]
    intro other hother
    exact decide_eq_true fun he => hdistinct.1 (List.mem_map.mpr ⟨other, hother, he⟩)
  rw [Disk.drop, h.prepared, List.map_cons, List.filter_append, List.filter_eq_self.mpr hbase,
    List.filter_cons_of_neg (by simp [Staged.entry]), List.filter_eq_self.mpr hrest]

/-- The prepared file has the text of its target. -/
theorem Ready.lookup {s : Staged} (h : disk.Ready base (s :: staged)) :
    disk.prepared.lookup s.file = some s.target.text.toUTF8 := by
  have hbase : base.lookup s.file = none := by
    rw [List.lookup_eq_none_iff]
    intro entry hentry
    exact bne_iff_ne.mpr (h.fresh s (List.mem_cons_self ..) entry hentry).symm
  rw [h.prepared, List.lookup_append, hbase, List.map_cons, Staged.entry, List.lookup_cons_self]
  rfl

/-- When the first prepared file is dropped, the others are ready still. -/
theorem Ready.tail {s : Staged} (h : disk.Ready base (s :: staged))
    (hprepared : other.prepared = (disk.drop s.file).prepared) : other.Ready base staged where
  prepared := hprepared.trans h.drop
  fresh t ht := h.fresh t (List.mem_cons_of_mem _ ht)
  distinct := (List.nodup_cons.mp h.distinct).2

/-- Dropping all prepared files leaves those that were there before, and changes nothing else. -/
theorem run_discardAll (h : disk.Ready base staged) :
    (((fileSystem faults).discardAll (staged.map Staged.prepared)).run disk).2 =
      { disk with prepared := base } := by
  induction staged generalizing disk with
  | nil =>
    have hprepared := h.prepared
    rw [List.map_nil, List.append_nil] at hprepared
    rw [← hprepared]
    rfl
  | cons s rest ih =>
    have hrest : (disk.drop s.file).Ready base rest := h.tail rfl
    exact ih hrest

/-- The last of the texts for every place has been put into it, and no directory has changed. -/
structure Installed (disk after : Disk) (base : List (Nat × ByteArray)) (targets : List Target) :
    Prop where
  alike : disk.Alike after
  prepared : after.prepared = base
  places : ∀ target ∈ targets, ∃ location, disk.Leads target.path location
  contents : ∀ location, after.contents? location =
    ((disk.lastFor? targets location).map (·.text.toUTF8)).or (disk.contents? location)

/-- Every place holds what it held, or what was saved of it, and no directory has changed. -/
structure Withdrawn (disk after : Disk) (base : List (Nat × ByteArray))
    (was : Location → Option ByteArray) : Prop where
  alike : disk.Alike after
  prepared : after.prepared = base
  contents : ∀ location, after.contents? location = disk.contents? location ∨
    after.contents? location = was location

section Steps

variable {middle after last : Disk} {was : Location → Option ByteArray}

/-- Where there are no targets, nothing need be done to install them. -/
theorem Installed.nil (hprepared : disk.prepared = base) : disk.Installed disk base [] where
  alike := .refl disk
  prepared := hprepared
  places _ hmem := absurd hmem List.not_mem_nil
  contents _ := rfl

/-- A text that is put into its place before others are installed is installed with them. -/
theorem Installed.cons {target : Target} {targets : List Target}
    (hleads : disk.Leads target.path location)
    (hsets : disk.Sets middle location (some target.text.toUTF8))
    (h : middle.Installed after base targets) : disk.Installed after base (target :: targets) where
  alike := hsets.alike.trans h.alike
  prepared := h.prepared
  places := by
    refine List.forall_mem_cons.mpr ⟨⟨location, hleads⟩, fun other hother => ?_⟩
    obtain ⟨found, hfound⟩ := h.places other hother
    exact ⟨found, hsets.alike.leads_iff.mp hfound⟩
  contents place := by
    have hplace : disk.fileAt? target.path = some place ↔ place = location := by
      rw [fileAt?_eq_some_iff]
      exact ⟨fun hl => hl.unique hleads, fun he => he ▸ hleads⟩
    rw [h.contents, hsets.contents, hsets.alike.lastFor?, lastFor?_cons]
    simp only [hplace]
    cases disk.lastFor? targets place with
    | some target => rfl
    | none => split <;> rfl

/-- Contents that are given to a place and are undone after the others are withdrawn. -/
theorem Withdrawn.undone {held : Option ByteArray} (hsets : disk.Sets middle location held)
    (h : middle.Withdrawn after base was) (hundo : after.Sets last location (was location))
    (hkept : last.prepared = after.prepared) : disk.Withdrawn last base was where
  alike := (hsets.alike.trans h.alike).trans hundo.alike
  prepared := hkept.trans h.prepared
  contents place := by
    rw [hundo.contents]
    by_cases he : place = location
    · rw [if_pos he, he]
      exact Or.inr rfl
    · have hmiddle := hsets.contents place
      rw [if_neg he] at hmiddle
      rw [if_neg he, ← hmiddle]
      exact h.contents place

end Steps

/-- Either every file is put into the place of its path, or every place that has been given
other contents holds what it did before. -/
theorem ensures_installAll (was : Location → Option ByteArray) (h : disk.Ready base staged)
    (hsaved : ∀ s ∈ staged, ∀ location, disk.Leads s.target.path location →
      s.previous = was location) :
    Ensures ((fileSystem faults).installAll (staged.map Staged.prepared)) disk
      (fun _ after => disk.Installed after base (staged.map (·.target)))
      (fun _ after => disk.Withdrawn after base was) := by
  -- the disk changes with every renaming, but not what was saved of its places
  induction staged generalizing disk with
  | nil =>
    have hprepared := h.prepared
    rw [List.map_nil, List.append_nil] at hprepared
    exact .pure (.nil hprepared)
  | cons s rest ih =>
    refine Ensures.bind (Ensures.onFailure (Ensures.adapt
      ((ensures_rename disk s.file s.target.path).mono ?_ ?_)))
    · rintro _ middle ⟨location, contents, hlookup, hleads, hfree, hsets, hprepared⟩
      obtain rfl := Option.some.inj (h.lookup.symm.trans hlookup)
      have hsaved' : ∀ t ∈ rest, ∀ location, middle.Leads t.target.path location →
          t.previous = was location := fun t ht location hl =>
        hsaved t (List.mem_cons_of_mem _ ht) location (hsets.alike.leads_iff.mp hl)
      refine Ensures.onFailure ((ih (h.tail hprepared) hsaved').mono ?_ ?_)
      · exact fun _ after hinstalled => .cons hleads hsets hinstalled
      · intro _ after hwithdrawn
        have halike := hsets.alike.trans hwithdrawn.alike
        have hleads' : after.Leads s.prepared.path location := halike.leads_iff.mpr hleads
        have hfree' : after.lookup location ≠ some .directory :=
          mt halike.lookup_eq_directory_iff.mp hfree
        obtain ⟨hundo, hkept⟩ := @sets_undo after location faults s.prepared hleads' hfree'
        have hprevious : s.prepared.previous = was location :=
          hsaved s (List.mem_cons_self ..) location hleads
        rw [hprevious] at hundo
        exact .undone hsets hwithdrawn hundo hkept
    · -- the renaming has failed, and all that is left to do is to drop the prepared files
      rintro _ _ ⟨n, rfl⟩
      have hready : Disk.Ready { disk with steps := n } base (s :: rest) :=
        ⟨h.prepared, h.fresh, h.distinct⟩
      have hrun := @run_discardAll _ faults _ _ hready
      rw [List.map_cons] at hrun
      rw [hrun]
      have halike : disk.Alike { disk with steps := n, prepared := base } :=
        ⟨⟨rfl, fun _ h => h⟩, rfl, fun _ h => h⟩
      exact ⟨halike, rfl, fun _ => Or.inl rfl⟩

end Installation

/-- No file is changed, no directory is gone, and no prepared file is left. -/
structure Untouched (disk after : Disk) : Prop where
  within : disk.Within after
  contents : ∀ location, after.contents? location = disk.contents? location
  prepared : after.prepared = disk.prepared

/-- Making directories touches no file. -/
theorem Stages.untouched {after : Disk} (h : disk.Stages after []) : disk.Untouched after where
  within := h.extended.within
  contents := h.extended.contents?
  prepared := by rw [h.prepared, List.map_nil, List.append_nil]

/-- Every path leads to a place, and reading it tells the text of its target, provided that no
later path leads to the same place. No other file is changed, no directory is gone, and no
prepared file is left. -/
structure Replaced (disk after : Disk) (targets : List Target) : Prop where
  within : disk.Within after
  places : ∀ target ∈ targets, ∃ location, after.Leads target.path location
  texts : ∀ earlier target later, targets = earlier ++ target :: later →
    (∀ other ∈ later, ∀ location, after.Leads target.path location →
      ¬ after.Leads other.path location) →
    after.read target.path = .ok target.text.toUTF8
  kept : ∀ location, (∀ target ∈ targets, ¬ after.Leads target.path location) →
    after.contents? location = disk.contents? location
  prepared : after.prepared = disk.prepared

section LastTargets

variable {targets : List Target}

/-- No target is the last for a place to which none leads. -/
theorem lastFor?_eq_none (h : ∀ target ∈ targets, ¬ disk.Leads target.path location) :
    disk.lastFor? targets location = none := by
  rw [lastFor?, List.find?_eq_none]
  intro target htarget hfound
  refine h target (List.mem_reverse.mp htarget) ?_
  exact fileAt?_eq_some_iff.mp (of_decide_eq_true hfound)

/-- A target behind which none leads to its place is the last for it. -/
theorem lastFor?_append_cons {target : Target} {later : List Target} (earlier : List Target)
    (hleads : disk.Leads target.path location)
    (h : ∀ other ∈ later, ¬ disk.Leads other.path location) :
    disk.lastFor? (earlier ++ target :: later) location = some target := by
  have hlast : disk.lastFor? (target :: later) location = some target := by
    rw [lastFor?_cons, lastFor?_eq_none h, if_pos (fileAt?_eq_some_iff.mpr hleads)]
    rfl
  rw [lastFor?] at hlast ⊢
  rw [List.reverse_append, List.find?_append, hlast]
  rfl

/-- Where every place to which a path leads holds the text of the last target for it, reading
the paths tells the texts. -/
theorem Replaced.of_lastFor? {after : Disk} (hwithin : disk.Within after)
    (hplaces : ∀ target ∈ targets, ∃ location, after.Leads target.path location)
    (hcontents : ∀ location, after.contents? location =
      ((after.lastFor? targets location).map (·.text.toUTF8)).or (disk.contents? location))
    (hprepared : after.prepared = disk.prepared) : disk.Replaced after targets where
  within := hwithin
  places := hplaces
  texts earlier target later htargets hlater := by
    have htarget : target ∈ targets := by
      rw [htargets]
      exact List.mem_append_right _ (List.mem_cons_self ..)
    obtain ⟨location, hleads⟩ := hplaces target htarget
    have hlast := lastFor?_append_cons earlier hleads fun other hother =>
      hlater other hother location hleads
    rw [hleads.read_eq_ok_iff, hcontents, htargets, hlast]
    rfl
  kept location hnone := by
    rw [hcontents, lastFor?_eq_none hnone]
    rfl
  prepared := hprepared

end LastTargets

/-- A run replaces all files or none. -/
theorem ensures_replaceAll {faults : Nat → Option IoFault} (h : disk.Orderly)
    (targets : List Target) :
    Ensures ((fileSystem faults).replaceAll targets) disk
      (fun paths after => paths = targets.map (·.path) ∧ disk.Replaced after targets)
      (fun _ after => disk.Untouched after) := by
  refine Ensures.bind ((ensures_prepareAll h targets).mono ?_ ?_)
  · rintro _ middle ⟨staged, rfl, rfl, hstages⟩
    have hready : middle.Ready disk.prepared staged :=
      { prepared := hstages.prepared
        fresh := fun s hs entry hentry =>
          Nat.ne_of_lt (Nat.lt_of_lt_of_le (h entry hentry) (hstages.files s hs).1)
        distinct := hstages.distinct }
    have hsaved : ∀ s ∈ staged, ∀ location, middle.Leads s.target.path location →
        s.previous = middle.contents? location := fun s hs location hl =>
      hstages.saved s hs middle location (.refl middle) hl
    refine Ensures.bind ((ensures_installAll middle.contents? hready hsaved).mono ?_ ?_)
    · intro _ after hinstalled
      have hwithin := hstages.extended.within.trans hinstalled.alike.1
      refine .pure ⟨rfl, .of_lastFor? hwithin ?_ (fun location => ?_) hinstalled.prepared⟩
      · intro target htarget
        obtain ⟨location, hleads⟩ := hinstalled.places target htarget
        exact ⟨location, hinstalled.alike.leads_iff.mpr hleads⟩
      · rw [hinstalled.alike.lastFor?, hinstalled.contents, hstages.extended.contents?]
    · intro _ after hwithdrawn
      have hwithin := hstages.extended.within.trans hwithdrawn.alike.1
      refine ⟨hwithin, fun location => ?_, hwithdrawn.prepared⟩
      rcases hwithdrawn.contents location with hkept | hrestored
      · rw [hkept, hstages.extended.contents?]
      · rw [hrestored, hstages.extended.contents?]
  · exact fun _ after hstages => hstages.untouched

section Middle

variable {middle after : Disk}

theorem Untouched.trans (h : disk.Untouched middle) (h' : middle.Untouched after) :
    disk.Untouched after where
  within := h.within.trans h'.within
  contents location := (h'.contents location).trans (h.contents location)
  prepared := h'.prepared.trans h.prepared

/-- What is replaced on a disk that is untouched until then is replaced on the disk. -/
theorem Untouched.replaced {targets : List Target} (h : disk.Untouched middle)
    (h' : middle.Replaced after targets) : disk.Replaced after targets where
  within := h.within.trans h'.within
  places := h'.places
  texts := h'.texts
  kept location hnone := (h'.kept location hnone).trans (h.contents location)
  prepared := h'.prepared.trans h.prepared

end Middle

end Keymap.Disk
