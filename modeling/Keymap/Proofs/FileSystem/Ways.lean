import Keymap.FileSystem.Disk
import Keymap.Proofs.FileSystem.Paths
import Keymap.Proofs.InStep

/-!
# Ways on a disk

A way turns only on the directories that it passes, so that it leads to the same place
as long as these are there, whatever happens to files. Where the directory of a path is
found, the path leads to the place of a name in this directory, although both are
reached by different steps.
-/

namespace Keymap.Disk

variable {disk other : Disk} {path : String} {location : Location}

/-- A path leads to a location in a directory where a file can stand or be put. -/
def Leads (disk : Disk) (path : String) (location : Location) : Prop :=
  disk.place path = .ok (.named location false)

/-- The directories of a disk are directories of another, with the same one current. -/
structure Within (disk other : Disk) : Prop where
  current : other.current = disk.current
  directories : ∀ location, disk.lookup location = some .directory →
    other.lookup location = some .directory

theorem Within.trans {last : Disk} (h : disk.Within other) (h' : other.Within last) :
    disk.Within last :=
  ⟨h'.current.trans h.current, fun _ hdirectory => h'.directories _ (h.directories _ hdirectory)⟩

theorem Within.start (h : disk.Within other) (path : String) :
    other.start path = disk.start path := by
  rw [Disk.start, Disk.start, h.current]

section Walks

/-- The location to which one step leads from a directory. -/
def advance (location : Location) (step : String) : Except IoFault Location :=
  if step = "" ∨ step = "." then .ok location
  else if step = ".." then .ok location.dropLast
  else inside location step

/-- The first step is made from a directory. -/
theorem walk_cons_eq_ok_iff {step : String} {rest : List String} {last : Location} :
    disk.walk location (step :: rest) = .ok last ↔
      disk.lookup location = some .directory ∧
        ∃ next, advance location step = .ok next ∧ disk.walk next rest = .ok last := by
  rw [walk, advance]
  cases disk.lookup location with
  | none => simp
  | some entry =>
    cases entry with
    | file contents => simp
    | directory =>
      simp only [Bool.or_eq_true, decide_eq_true_iff, true_and]
      split
      · simp
      · split
        · simp
        · cases inside location step <;> simp

/-- A way leads to the same place on a disk with more directories. -/
theorem Within.walk (h : disk.Within other) {steps : List String} {last : Location}
    (hwalk : disk.walk location steps = .ok last) : other.walk location steps = .ok last := by
  induction steps generalizing location with
  | nil => exact hwalk
  | cons step rest ih =>
    obtain ⟨hdirectory, next, hnext, hrest⟩ := walk_cons_eq_ok_iff.mp hwalk
    exact walk_cons_eq_ok_iff.mpr ⟨h.directories _ hdirectory, next, hnext, ih hrest⟩

/-- A walk over steps and more steps is one walk behind the other. -/
theorem walk_append_eq_ok_iff {steps more : List String} {last : Location} :
    disk.walk location (steps ++ more) = .ok last ↔
      ∃ middle, disk.walk location steps = .ok middle ∧ disk.walk middle more = .ok last := by
  induction steps generalizing location with
  | nil => simp [walk]
  | cons step rest ih =>
    simp only [List.cons_append, walk_cons_eq_ok_iff, ih]
    constructor
    · rintro ⟨hdirectory, next, hnext, middle, hrest, hmore⟩
      exact ⟨middle, ⟨hdirectory, next, hnext, hrest⟩, hmore⟩
    · rintro ⟨middle, ⟨hdirectory, next, hnext, hrest⟩, hmore⟩
      exact ⟨hdirectory, next, hnext, middle, hrest, hmore⟩

/-- A single step leads from a directory. -/
theorem walk_singleton_eq_ok_iff {step : String} {last : Location} :
    disk.walk location [step] = .ok last ↔
      disk.lookup location = some .directory ∧ advance location step = .ok last := by
  rw [walk_cons_eq_ok_iff]
  simp only [walk, Except.ok.injEq, exists_eq_right]

/-- A step that does not move stays where it is. -/
theorem advance_of_not_moves {step : String} (h : ¬ Path.Moves step) :
    advance location step = .ok location := by
  have hstays : step = "" ∨ step = "." := by
    rw [Path.Moves, not_and_or, not_not, not_not] at h
    exact h
  rw [advance, if_pos hstays]

/-- A step that moves, and not upwards, goes inside. -/
theorem advance_of_moves {step : String} (h : Path.Moves step) (hup : step ≠ "..") :
    advance location step = inside location step := by
  rw [advance, if_neg (not_or.mpr h), if_neg hup]

/-- A way that ends in a directory begins in one. -/
theorem lookup_of_walk {steps : List String} {last : Location}
    (h : disk.walk location steps = .ok last) (hlast : disk.lookup last = some .directory) :
    disk.lookup location = some .directory := by
  cases steps with
  | nil =>
    rw [walk, Except.ok.injEq] at h
    rwa [h]
  | cons step rest => exact (walk_cons_eq_ok_iff.mp h).1

/-- The steps that say nothing can be left out and put in on the way to a directory. -/
theorem walk_moving_eq_ok_iff {steps : List String} {last : Location}
    (hlast : disk.lookup last = some .directory) :
    disk.walk location (Path.moving steps) = .ok last ↔ disk.walk location steps = .ok last := by
  induction steps generalizing location with
  | nil => rfl
  | cons step rest ih =>
    by_cases hmoves : Path.Moves step
    · rw [Path.moving_cons_of_moves hmoves, walk_cons_eq_ok_iff, walk_cons_eq_ok_iff]
      simp only [ih]
    · rw [Path.moving_cons_of_not_moves hmoves, walk_cons_eq_ok_iff, ih,
        advance_of_not_moves hmoves]
      constructor
      · intro h
        exact ⟨lookup_of_walk h hlast, location, rfl, h⟩
      · rintro ⟨_, next, hnext, h⟩
        cases hnext
        exact h

end Walks

section Places

/-- An empty step behind a way asks for a directory. -/
theorem walk_append_empty_eq_ok_iff {steps : List String} {last : Location} :
    disk.walk location (steps ++ [""]) = .ok last ↔
      disk.walk location steps = .ok last ∧ disk.lookup last = some .directory := by
  have hstays : ¬ Path.Moves "" := fun h => h.1 rfl
  rw [walk_append_eq_ok_iff]
  simp only [walk_singleton_eq_ok_iff, advance_of_not_moves hstays, Except.ok.injEq]
  constructor
  · rintro ⟨middle, hwalk, hdirectory, rfl⟩
    exact ⟨hwalk, hdirectory⟩
  · rintro ⟨hwalk, hdirectory⟩
    exact ⟨last, hwalk, hdirectory, rfl⟩

/-- The last step of a path without a stroke behind it. -/
theorem dropWhile_eq_cons {steps : List String} {name : String} {way : List String}
    (h : steps.dropWhile (· = "") = name :: way) (hhead : steps.head? ≠ some "") :
    steps = name :: way ∧ name ≠ "" := by
  cases steps with
  | nil => cases h
  | cons first rest =>
    have hfirst : first ≠ "" := fun he => hhead (congrArg some he)
    rw [List.dropWhile_cons_of_neg (by simpa using hfirst), List.cons.injEq] at h
    exact ⟨by rw [h.1, h.2], h.1 ▸ hfirst⟩

/-- A path leads to the place of its last step, if that is a name, in the directory to which
the other steps lead. -/
theorem leads_iff : disk.Leads path location ↔
    checkPath path = .ok () ∧ ∃ way name directory, Path.steps path = way ++ [name] ∧
      (Path.Moves name ∧ name ≠ "..") ∧ disk.walk (disk.start path) way = .ok directory ∧
      disk.lookup directory = some .directory ∧ inside directory name = .ok location := by
  rw [Leads, place, bind_eq_ok_iff]
  constructor
  · rintro ⟨_, hcheck, h⟩
    refine ⟨hcheck, ?_⟩
    dsimp only at h
    split at h
    next => cases h
    next name way hbehind =>
      obtain ⟨directory, hwalk, h⟩ := bind_eq_ok_iff.mp h
      split at h
      next => cases h
      next hspecial =>
        obtain ⟨found, hinside, h⟩ := bind_eq_ok_iff.mp h
        obtain ⟨rfl, hhead⟩ := Place.named.inj (Except.ok.inj h)
        obtain ⟨hsteps, hname⟩ := dropWhile_eq_cons hbehind (of_decide_eq_false hhead)
        obtain ⟨hway, hdirectory⟩ := walk_append_empty_eq_ok_iff.mp hwalk
        simp only [Bool.or_eq_true, decide_eq_true_iff, not_or] at hspecial
        refine ⟨way.reverse, name, directory, ?_, ⟨⟨hname, hspecial.1⟩, hspecial.2⟩, hway,
          hdirectory, hinside⟩
        rw [← List.reverse_cons, ← hsteps, List.reverse_reverse]
  · rintro ⟨hcheck, way, name, directory, hsteps, ⟨hmoves, hup⟩, hway, hdirectory, hinside⟩
    refine ⟨(), hcheck, ?_⟩
    have hbehind : (way ++ [name]).reverse.dropWhile (· = "") = name :: way.reverse := by
      rw [List.reverse_concat, List.dropWhile_cons_of_neg (by simpa using hmoves.1)]
    have hhead : (way ++ [name]).reverse.head? ≠ some "" := by
      rw [List.reverse_concat, List.head?_cons]
      exact fun he => hmoves.1 (Option.some.inj he)
    have hwalk := walk_append_empty_eq_ok_iff.mpr ⟨hway, hdirectory⟩
    have hnamed : ¬ (decide (name = ".") || decide (name = "..")) = true := by
      simp [hmoves.2, hup]
    simp only [hsteps, hbehind, List.reverse_reverse, hhead, decide_false]
    refine bind_eq_ok_iff.mpr ⟨directory, hwalk, ?_⟩
    rw [if_neg hnamed]
    exact bind_eq_ok_iff.mpr ⟨location, hinside, rfl⟩

theorem inside_eq_ok {directory : Location} {name : String}
    (h : inside directory name = .ok location) : location = directory ++ [name] := by
  rw [inside] at h
  split at h
  · cases h
  · exact (Except.ok.inj h).symm

/-- A file does not stand at the root. -/
theorem Leads.ne_nil (h : disk.Leads path location) : location ≠ [] := by
  obtain ⟨_, way, name, directory, _, _, _, _, hinside⟩ := leads_iff.mp h
  rw [inside_eq_ok hinside]
  exact List.concat_ne_nil name directory

/-- A path leads to one place only. -/
theorem Leads.unique {location' : Location} (h : disk.Leads path location)
    (h' : disk.Leads path location') : location = location' := by
  have hplace := h.symm.trans h'
  exact (Place.named.inj (Except.ok.inj hplace)).1

/-- A path leads to the same place on a disk with more directories. -/
theorem Within.leads (h : disk.Within other) (hleads : disk.Leads path location) :
    other.Leads path location := by
  obtain ⟨hcheck, way, name, directory, hsteps, hname, hway, hdirectory, hinside⟩ :=
    leads_iff.mp hleads
  refine leads_iff.mpr ⟨hcheck, way, name, directory, hsteps, hname, ?_, ?_, hinside⟩
  · rw [h.start]
    exact h.walk hway
  · exact h.directories _ hdirectory

/-- A path that leads to a place finds what stands there. -/
theorem Leads.find (h : disk.Leads path location) :
    disk.find path =
      match disk.lookup location with
      | some entry => .ok (location, entry)
      | none => .error .notFound := by
  obtain ⟨hcheck, way, name, directory, hsteps, ⟨hmoves, hup⟩, hway, hdirectory, hinside⟩ :=
    leads_iff.mp h
  have hlocate : disk.locate path = .ok location := by
    rw [locate, hcheck, hsteps]
    refine walk_append_eq_ok_iff.mpr ⟨directory, hway, ?_⟩
    rw [walk_singleton_eq_ok_iff, advance_of_moves hmoves hup]
    exact ⟨hdirectory, hinside⟩
  rw [Disk.find, hlocate]
  rfl

/-- Reading a path tells what the file at its place holds. -/
theorem Leads.read_eq_ok_iff (h : disk.Leads path location) {contents : ByteArray} :
    disk.read path = .ok contents ↔ disk.contents? location = some contents := by
  rw [Disk.read, h.find, contents?]
  have hneither : ∀ fault, (Except.error fault : Except IoFault ByteArray) = .ok contents ↔
      none = some contents := fun fault => by simp
  cases disk.lookup location with
  | none => exact hneither .notFound
  | some entry =>
    cases entry with
    | directory => exact hneither .isDirectory
    | file held =>
      constructor
      · exact fun he => congrArg some (Except.ok.inj he)
      · exact fun he => congrArg Except.ok (Option.some.inj he)

/-- Where no file stands, nothing is held. -/
theorem Leads.contents?_eq_none (h : disk.Leads path location)
    (hkind : disk.kind? path ≠ some .file) : disk.contents? location = none := by
  rw [Disk.kind?, h.find] at hkind
  rw [contents?]
  cases hentry : disk.lookup location with
  | none => rfl
  | some entry =>
    cases entry with
    | directory => rfl
    | file held =>
      rw [hentry] at hkind
      exact absurd rfl hkind

/-- Where the directory of a path is found, the path leads to a place if it does so on a disk
with more directories. -/
theorem leads_of_find_parent {found : Location}
    (hparent : disk.find (Path.parent path) = .ok (found, .directory)) (h : disk.Within other)
    (hleads : other.Leads path location) : disk.Leads path location := by
  obtain ⟨hcheck, way, name, directory, hsteps, ⟨hmoves, hup⟩, hway, hdirectory, hinside⟩ :=
    leads_iff.mp hleads
  obtain ⟨habsolute, hmoving⟩ := Path.steps_parent hsteps hmoves
  have hstart : disk.start (Path.parent path) = disk.start path := by
    rw [start, start, habsolute]
  have hfound : disk.walk (disk.start path) (Path.steps (Path.parent path)) = .ok found ∧
      disk.lookup found = some .directory := by
    rw [Disk.find, bind_eq_ok_iff] at hparent
    obtain ⟨location, hlocate, hparent⟩ := hparent
    obtain ⟨_, _, hwalk⟩ := bind_eq_ok_iff.mp hlocate
    split at hparent
    next entry hentry =>
      cases hparent
      rw [hstart] at hwalk
      exact ⟨hwalk, hentry⟩
    next => cases hparent
  obtain ⟨hwalk, hlookup⟩ := hfound
  -- the way to the directory and the path to it differ in steps that do not move a walk
  rw [← walk_moving_eq_ok_iff hlookup, hmoving, walk_moving_eq_ok_iff hlookup] at hwalk
  have hsame := h.walk hwalk
  rw [h.start] at hway
  obtain rfl := Except.ok.inj (hsame.symm.trans hway)
  exact leads_iff.mpr ⟨hcheck, way, name, found, hsteps, ⟨hmoves, hup⟩, hwalk, hlookup, hinside⟩

end Places

section Extensions

/-- What stands on a disk stands there still, and only directories are new. -/
structure Extends (disk other : Disk) : Prop where
  current : other.current = disk.current
  lookup : ∀ location, other.lookup location = disk.lookup location ∨
    disk.lookup location = none ∧ other.lookup location = some .directory

theorem Extends.refl (disk : Disk) : disk.Extends disk := ⟨rfl, fun _ => Or.inl rfl⟩

theorem Extends.trans {last : Disk} (h : disk.Extends other) (h' : other.Extends last) :
    disk.Extends last where
  current := h'.current.trans h.current
  lookup location := by
    rcases h'.lookup location with hsame | ⟨hnone, hnew⟩
    · rw [hsame]
      exact h.lookup location
    · rcases h.lookup location with hsame | ⟨_, hdirectory⟩
      · exact Or.inr ⟨hsame.symm.trans hnone, hnew⟩
      · rw [hdirectory] at hnone
        cases hnone

/-- A disk with new directories has all the old ones. -/
theorem Extends.within (h : disk.Extends other) : disk.Within other where
  current := h.current
  directories location hdirectory := by
    rcases h.lookup location with hsame | ⟨hnone, _⟩
    · exact hsame.trans hdirectory
    · rw [hdirectory] at hnone
      cases hnone

/-- No file is changed. -/
theorem Extends.contents? (h : disk.Extends other) (location : Location) :
    other.contents? location = disk.contents? location := by
  rw [Disk.contents?, Disk.contents?]
  rcases h.lookup location with hsame | ⟨hnone, hnew⟩
  · rw [hsame]
  · rw [hnone, hnew]

/-- A directory that is made extends the disk. -/
theorem extends_put_directory (hnone : disk.lookup location = none) :
    disk.Extends (disk.put location .directory) where
  current := rfl
  lookup other := by
    have hne : location ≠ [] := by
      rintro rfl
      cases hnone
    rw [lookup_put disk hne]
    split
    next he =>
      rw [he]
      exact Or.inr ⟨hnone, rfl⟩
    next => exact Or.inl rfl

end Extensions

end Keymap.Disk
