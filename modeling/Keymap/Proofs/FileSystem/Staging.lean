import Keymap.Proofs.FileSystem.Runs
import Keymap.Proofs.FileSystem.Ways

/-!
# Preparing replacements

Until the first file is replaced, a run only makes directories and prepares files of its
own. If it fails, the prepared files are dropped again. If it does not, then for every
target a file is prepared with its text, and what stood at its path is saved.
-/

namespace Keymap

/-- A target with the file that is prepared for it, and what is saved of its path. -/
structure Staged where
  target : Target
  file : Nat
  previous : Option ByteArray

namespace Staged

/-- What a run knows of the target. -/
def prepared (staged : Staged) : Prepared Nat := ⟨staged.file, staged.target.path, staged.previous⟩

/-- The prepared file with the text of the target. -/
def entry (staged : Staged) : Nat × ByteArray := (staged.file, staged.target.text.toUTF8)

/-- What the file at the path holds is saved, wherever the path leads once there are more
directories. -/
def Saves (staged : Staged) (disk : Disk) : Prop :=
  ∀ other location, disk.Extends other → other.Leads staged.target.path location →
    staged.previous = disk.contents? location

/-- What is saved stays saved when there are more directories. -/
theorem Saves.of_extends {staged : Staged} {disk other : Disk} (h : staged.Saves disk)
    (hextends : disk.Extends other) : staged.Saves other := by
  intro last location hlast hleads
  rw [hextends.contents?]
  exact h last location (hextends.trans hlast) hleads

end Staged

namespace Disk

variable {disk other : Disk}

/-- The numbers of prepared files are below the number of files so far. -/
def Orderly (disk : Disk) : Prop := ∀ entry ∈ disk.prepared, entry.1 < disk.counter

/-- Files are prepared for some targets, with numbers of their own, and nothing else has
happened but that there may be more directories. -/
structure Stages (disk other : Disk) (staged : List Staged) : Prop where
  extended : disk.Extends other
  counter : disk.counter ≤ other.counter
  prepared : other.prepared = disk.prepared ++ staged.map Staged.entry
  files : ∀ s ∈ staged, disk.counter ≤ s.file ∧ s.file < other.counter
  distinct : (staged.map (·.file)).Nodup
  saved : ∀ s ∈ staged, s.Saves other

/-- Dropping a prepared file leaves those before it. -/
theorem filter_prepared {before : List (Nat × ByteArray)} {file : Nat} {contents : ByteArray}
    (h : ∀ entry ∈ before, entry.1 ≠ file) :
    ((before ++ [(file, contents)]).filter fun entry => entry.1 ≠ file) = before := by
  have hbefore : before.filter (fun entry => entry.1 ≠ file) = before :=
    List.filter_eq_self.mpr fun entry hentry => decide_eq_true (h entry hentry)
  rw [List.filter_append, hbefore, List.filter_cons_of_neg (by simp), List.filter_nil,
    List.append_nil]

namespace Stages

/-- Where only directories are new, no files are prepared. -/
theorem of_extends (h : disk.Extends other) (hcounter : disk.counter ≤ other.counter)
    (hprepared : other.prepared = disk.prepared) : disk.Stages other [] where
  extended := h
  counter := hcounter
  prepared := by rw [hprepared, List.map_nil, List.append_nil]
  files _ h := absurd h List.not_mem_nil
  distinct := List.nodup_nil
  saved _ h := absurd h List.not_mem_nil

theorem refl (disk : Disk) : disk.Stages disk [] := of_extends (.refl disk) (Nat.le_refl _) rfl

/-- Files that are prepared one after the other are prepared together. -/
theorem trans {last : Disk} {staged more : List Staged} (h : disk.Stages other staged)
    (h' : other.Stages last more) : disk.Stages last (staged ++ more) where
  extended := h.extended.trans h'.extended
  counter := Nat.le_trans h.counter h'.counter
  prepared := by rw [h'.prepared, h.prepared, List.map_append, List.append_assoc]
  files s hs := by
    rcases List.mem_append.mp hs with hs | hs
    · have hfile := h.files s hs
      exact ⟨hfile.1, Nat.lt_of_lt_of_le hfile.2 h'.counter⟩
    · have hfile := h'.files s hs
      exact ⟨Nat.le_trans h.counter hfile.1, hfile.2⟩
  distinct := by
    rw [List.map_append, List.nodup_append]
    refine ⟨h.distinct, h'.distinct, ?_⟩
    intro file hfile file' hfile' he
    obtain ⟨s, hs, rfl⟩ := List.mem_map.mp hfile
    obtain ⟨s', hs', rfl⟩ := List.mem_map.mp hfile'
    have hbelow := (h.files s hs).2
    have habove := (h'.files s' hs').1
    omega
  saved s hs := by
    rcases List.mem_append.mp hs with hs | hs
    · exact (h.saved s hs).of_extends h'.extended
    · exact h'.saved s hs

/-- Preparing files keeps their numbers below the number of files so far. -/
theorem orderly {staged : List Staged} (h : disk.Stages other staged) (hdisk : disk.Orderly) :
    other.Orderly := by
  intro entry hentry
  rw [h.prepared] at hentry
  rcases List.mem_append.mp hentry with hentry | hentry
  · exact Nat.lt_of_lt_of_le (hdisk entry hentry) h.counter
  · obtain ⟨s, hs, rfl⟩ := List.mem_map.mp hentry
    exact (h.files s hs).2

/-- A file that is prepared and dropped again leaves nothing. -/
theorem drop {s : Staged} (h : disk.Stages other [s]) (hdisk : disk.Orderly) :
    disk.Stages (other.drop s.file) [] := by
  refine of_extends ⟨h.extended.current, h.extended.lookup⟩ h.counter ?_
  have hfile := (h.files s (List.mem_singleton.mpr rfl)).1
  rw [Disk.drop, h.prepared]
  refine filter_prepared fun entry hentry => ?_
  exact Nat.ne_of_lt (Nat.lt_of_lt_of_le (hdisk entry hentry) hfile)

end Stages

section Steps

/-- Nothing has happened but steps. -/
def Idle (disk other : Disk) : Prop := ∃ n, other = { disk with steps := n }

theorem Idle.refl (disk : Disk) : disk.Idle disk := ⟨disk.steps, rfl⟩

theorem Idle.trans {last : Disk} (h : disk.Idle other) (h' : other.Idle last) :
    disk.Idle last := by
  obtain ⟨n, rfl⟩ := h
  obtain ⟨n', rfl⟩ := h'
  exact ⟨n', rfl⟩

/-- Steps alone prepare no files. -/
theorem Idle.stages (h : disk.Idle other) : disk.Stages other [] := by
  obtain ⟨n, rfl⟩ := h
  exact .of_extends ⟨rfl, fun _ => Or.inl rfl⟩ (Nat.le_refl _) rfl

variable {faults : Nat → Option IoFault} {path : String}

/-- A step fails without having done anything, or does what the disk allows. -/
theorem ensures_step {action : Disk → Except IoFault (Disk × α)} {ok : α → Disk → Prop}
    {error : IoFault → Disk → Prop}
    (herror : ∀ fault, error fault { disk with steps := disk.steps + 1 })
    (hok : ∀ after value, action { disk with steps := disk.steps + 1 } = .ok (after, value) →
      ok value after) : Ensures (step faults action) disk ok error := by
  have hrun : ((step faults action).run.run disk : Except IoFault α × Disk) =
      step faults action disk := rfl
  rw [step] at hrun
  cases hfault : faults disk.steps with
  | some fault =>
    rw [hfault] at hrun
    exact .of_run_error hrun (herror fault)
  | none =>
    rw [hfault] at hrun
    cases haction : action { disk with steps := disk.steps + 1 } with
    | ok result =>
      rw [haction] at hrun
      exact .of_run_ok hrun (hok result.1 result.2 haction)
    | error fault =>
      rw [haction] at hrun
      exact .of_run_error hrun (herror fault)

/-- One step more changes nothing. -/
theorem stages_next (disk : Disk) : disk.Stages { disk with steps := disk.steps + 1 } [] :=
  Idle.stages ⟨disk.steps + 1, rfl⟩

/-- A run only makes directories, whether it fails or not. -/
def OnlyDirectories (action : ExceptT IoFault (StateM Disk) Unit) : Prop :=
  ∀ disk, Ensures action disk (fun _ after => disk.Stages after [])
    (fun _ after => disk.Stages after [])

theorem onlyDirectories_createDirectory :
    OnlyDirectories ((fileSystem faults).createDirectory path) := by
  intro disk
  have hstep : (fileSystem faults).createDirectory path =
      step faults fun disk => return (← disk.createDirectory path, ()) := rfl
  rw [hstep]
  refine ensures_step (fun _ => ?_) fun after _ haction => ?_
  · exact stages_next disk
  · obtain ⟨made, hmade, hafter⟩ := bind_eq_ok_iff.mp haction
    cases hafter
    obtain ⟨place, _, hmade⟩ := bind_eq_ok_iff.mp hmade
    refine (stages_next disk).trans ?_
    cases place with
    | special => cases hmade
    | named location slash =>
      dsimp only at hmade
      split at hmade
      next => cases hmade
      next hfree =>
        cases hmade
        rw [Bool.not_eq_true, Option.isSome_eq_false_iff, Option.isNone_iff_eq_none] at hfree
        exact .of_extends (extends_put_directory hfree) (Nat.le_refl _) rfl

/-- A directory is made unless it is there. -/
theorem onlyDirectories_ensureDirectory :
    OnlyDirectories ((fileSystem faults).ensureDirectory path) := by
  intro disk
  rw [FileSystem.ensureDirectory]
  refine Ensures.handle ((onlyDirectories_createDirectory disk).mono ?_ ?_)
  · exact fun _ after h => .pure h
  · intro fault after h
    cases fault with
    | alreadyExists =>
      refine Ensures.look ?_
      split
      · exact .pure h
      · exact .throw h
    | _ => exact .throw h

/-- Directories that lead to one are made where they are missing. -/
theorem onlyDirectories_ensureDirectories (paths : List String) :
    OnlyDirectories ((fileSystem faults).ensureDirectories paths) := by
  induction paths with
  | nil => exact fun disk => .pure (.refl disk)
  | cons path outer ih =>
    intro disk
    rw [FileSystem.ensureDirectories]
    refine Ensures.handle ((onlyDirectories_ensureDirectory disk).mono ?_ ?_)
    · exact fun _ after h => .pure h
    · intro fault after h
      cases fault with
      | notFound =>
        refine Ensures.handle ((ih after).mono ?_ ?_)
        · intro _ last hlast
          refine (onlyDirectories_ensureDirectory last).mono ?_ ?_
          · exact fun _ end' hend => (h.trans hlast).trans hend
          · exact fun _ end' hend => (h.trans hlast).trans hend
        · exact fun _ last hlast => .throw (h.trans hlast)
      | _ => exact .throw h

/-- Creating all directories of a path makes new directories only. -/
theorem onlyDirectories_createDirectories :
    OnlyDirectories ((fileSystem faults).createDirectories path) :=
  onlyDirectories_ensureDirectories _

/-- Reading changes nothing, and has the contents of the file that is found. -/
theorem ensures_read (disk : Disk) (path : String) :
    Ensures ((fileSystem faults).read path) disk
      (fun contents after => disk.Idle after ∧
        Disk.read { disk with steps := disk.steps + 1 } path = .ok contents)
      fun _ after => disk.Idle after := by
  have hstep : (fileSystem faults).read path =
      step faults fun disk => return (disk, ← disk.read path) := rfl
  rw [hstep]
  refine ensures_step (fun _ => ⟨_, rfl⟩) fun after contents haction => ?_
  obtain ⟨found, hfound, hafter⟩ := bind_eq_ok_iff.mp haction
  cases hafter
  exact ⟨⟨_, rfl⟩, hfound⟩

/-- Reading what stands at a path changes nothing, and where the path leads to a place it
tells what the file there holds. -/
theorem ensures_readPrevious (disk : Disk) (path : String) :
    Ensures ((fileSystem faults).readPrevious path) disk
      (fun previous after => disk.Idle after ∧
        ∀ location, disk.Leads path location → previous = disk.contents? location)
      (fun _ after => disk.Idle after) := by
  refine Ensures.bind (Ensures.lift ?_)
  change Ensures (if disk.kind? path = some .file then _ else _) disk _ _
  by_cases hkind : disk.kind? path = some .file
  · rw [if_pos hkind]
    refine Ensures.bind ((ensures_read disk path).mono ?_ fun _ _ hidle => hidle)
    rintro contents after ⟨hidle, hfound⟩
    refine .pure ⟨hidle, fun location hleads => ?_⟩
    have hnext := (stages_next disk).extended.within.leads hleads
    exact (hnext.read_eq_ok_iff.mp hfound).symm
  · rw [if_neg hkind]
    exact .pure ⟨.refl disk, fun location hleads => (hleads.contents?_eq_none hkind).symm⟩

/-- A file is prepared in a directory that is found, with the next number. -/
theorem ensures_prepare (disk : Disk) (directory : String) :
    Ensures ((fileSystem faults).prepare directory) disk
      (fun file after => file = disk.counter ∧
        (∃ found, Disk.find { disk with steps := disk.steps + 1 } directory =
          .ok (found, .directory)) ∧
        ∃ n, after = { disk with
          prepared := disk.prepared ++ [(disk.counter, .empty)]
          counter := disk.counter + 1
          steps := n })
      (fun _ after => disk.Idle after) := by
  have hstep : (fileSystem faults).prepare directory =
      step faults fun disk => disk.prepare directory := rfl
  rw [hstep]
  refine ensures_step (fun _ => ⟨_, rfl⟩) fun after file haction => ?_
  obtain ⟨⟨found, entry⟩, hfound, haction⟩ := bind_eq_ok_iff.mp haction
  cases entry with
  | file contents => cases haction
  | directory =>
    cases haction
    exact ⟨rfl, ⟨found, hfound⟩, _, rfl⟩

/-- A prepared file is given its contents. -/
theorem ensures_fill (disk : Disk) {before : List (Nat × ByteArray)} {file : Nat}
    (contents : ByteArray) (hprepared : disk.prepared = before ++ [(file, .empty)])
    (hfresh : ∀ entry ∈ before, entry.1 ≠ file) :
    Ensures ((fileSystem faults).fill file contents) disk
      (fun _ after => ∃ n, after = { disk with
        prepared := before ++ [(file, contents)], steps := n })
      (fun _ after => disk.Idle after) := by
  have hstep : (fileSystem faults).fill file contents =
      step faults fun disk => return (← disk.fill file contents, ()) := rfl
  rw [hstep]
  refine ensures_step (fun _ => ⟨_, rfl⟩) fun after _ haction => ?_
  obtain ⟨filled, hfilled, hafter⟩ := bind_eq_ok_iff.mp haction
  cases hafter
  rw [Disk.fill] at hfilled
  split at hfilled
  next => cases hfilled
  next =>
    cases hfilled
    have hbefore : (before.map fun entry => if entry.1 = file then (file, contents) else entry) =
        before :=
      (List.map_congr_left fun entry hentry => if_neg (hfresh entry hentry)).trans
        (List.map_id before)
    simp only [hprepared, List.map_append, hbefore, List.map_singleton, if_true]
    exact ⟨_, rfl⟩

/-- For one target a file is prepared with its text, or nothing is left of it. -/
theorem ensures_prepareTarget (hdisk : disk.Orderly) (target : Target) :
    Ensures ((fileSystem faults).prepareTarget target) disk
      (fun prepared after => ∃ s : Staged, prepared = s.prepared ∧ s.target = target ∧
        disk.Stages after [s])
      (fun _ after => disk.Stages after []) := by
  refine Ensures.bind ((onlyDirectories_createDirectories disk).mono ?_ fun _ _ h => h)
  intro _ start hstart
  have hfresh : ∀ entry ∈ start.prepared, entry.1 ≠ start.counter := fun entry hentry =>
    Nat.ne_of_lt (hstart.orderly hdisk entry hentry)
  -- whatever the prepared file holds, nothing is left of it once it is dropped
  have hdropped : ∀ contents n, disk.Stages (Disk.drop { start with
      prepared := start.prepared ++ [(start.counter, contents)]
      counter := start.counter + 1
      steps := n } start.counter) [] := fun contents n =>
    hstart.trans (.of_extends ⟨rfl, fun _ => Or.inl rfl⟩ (Nat.le_succ _) (filter_prepared hfresh))
  refine Ensures.bind ((ensures_prepare start _).mono ?_ ?_)
  · rintro _ made ⟨rfl, ⟨found, hfound⟩, n, rfl⟩
    refine Ensures.onFailure (Ensures.bind ((ensures_fill _ _ rfl hfresh).mono ?_ ?_))
    · rintro _ _ ⟨n', rfl⟩
      refine Ensures.bind ((ensures_readPrevious _ target.path).mono ?_ ?_)
      · rintro previous _ ⟨⟨n'', rfl⟩, hprevious⟩
        refine .pure ⟨⟨target, start.counter, previous⟩, rfl, rfl, hstart.trans
          { extended := ⟨rfl, fun _ => Or.inl rfl⟩
            counter := Nat.le_succ _
            prepared := rfl
            files := ?_
            distinct := List.nodup_cons.mpr ⟨List.not_mem_nil, List.nodup_nil⟩
            saved := ?_ }⟩
        · intro s hs
          rw [List.mem_singleton.mp hs]
          exact ⟨Nat.le_refl _, Nat.lt_succ_self _⟩
        · intro s hs other location hother hleads
          rw [List.mem_singleton.mp hs] at hleads ⊢
          have hwithin : Within { start with steps := start.steps + 1 } other :=
            ⟨hother.current, hother.within.directories⟩
          have hbefore := leads_of_find_parent hfound hwithin hleads
          refine hprevious location (Within.leads ?_ hbefore)
          exact ⟨rfl, fun _ h => h⟩
      · rintro _ _ ⟨n'', rfl⟩
        exact hdropped _ _
    · rintro _ _ ⟨n', rfl⟩
      exact hdropped _ _
  · rintro _ _ ⟨n, rfl⟩
    exact hstart.trans (.of_extends ⟨rfl, fun _ => Or.inl rfl⟩ (Nat.le_refl _) rfl)

/-- For all targets files are prepared with their texts, or nothing is left of them. -/
theorem ensures_prepareAll (hdisk : disk.Orderly) (targets : List Target) :
    Ensures ((fileSystem faults).prepareAll targets) disk
      (fun prepared after => ∃ staged : List Staged, prepared = staged.map Staged.prepared ∧
        staged.map (·.target) = targets ∧ disk.Stages after staged)
      (fun _ after => disk.Stages after []) := by
  induction targets generalizing disk with
  | nil => exact .pure ⟨[], rfl, rfl, .refl disk⟩
  | cons target rest ih =>
    refine Ensures.bind (Ensures.adapt
      ((ensures_prepareTarget hdisk target).mono ?_ fun _ _ h => h))
    rintro _ middle ⟨s, rfl, rfl, hs⟩
    refine Ensures.bind (Ensures.onFailure ((ih (hs.orderly hdisk)).mono ?_ ?_))
    · rintro _ after ⟨staged, rfl, rfl, hrest⟩
      exact .pure ⟨s :: staged, rfl, rfl, hs.trans hrest⟩
    · intro _ after hrest
      exact (hs.trans hrest).drop hdisk

end Steps

end Disk

end Keymap
