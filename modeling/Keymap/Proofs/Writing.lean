import Keymap.CommandLine.Run
import Keymap.Proofs.FileSystem.Replacement

/-!
# Writing outputs, all or none

A generation looks at files until all texts are made. From then on it makes directories,
and replaces its outputs, all or none. A failure before that leaves the disk as it was.
-/

namespace Keymap

open CommandLine

namespace Disk

variable {disk : Disk} {faults : Nat → Option IoFault}

section Looks

variable {ε ε' α β : Type}

/-- A run only looks at files, whether it fails or not. -/
def OnlyLooks (action : ExceptT ε (StateM Disk) α) : Prop :=
  ∀ disk, Ensures action disk (fun _ after => disk.Idle after) fun _ after => disk.Idle after

/-- What needs no files only looks at them. -/
theorem onlyLooks_liftExcept {result : Except ε α} :
    OnlyLooks (ExceptT.mk (pure result) : ExceptT ε (StateM Disk) α) := by
  intro disk
  cases result with
  | ok value => exact .pure (Idle.refl disk)
  | error fault => exact .throw (Idle.refl disk)

theorem OnlyLooks.adapt {action : ExceptT ε (StateM Disk) α} (h : OnlyLooks action)
    (wrap : ε → ε') : OnlyLooks (action.adapt wrap) :=
  fun disk => Ensures.adapt (h disk)

/-- Two runs that only look at files do so together. -/
theorem OnlyLooks.bind {action : ExceptT ε (StateM Disk) α}
    {next : α → ExceptT ε (StateM Disk) β} (h : OnlyLooks action)
    (hnext : ∀ value, OnlyLooks (next value)) : OnlyLooks (action >>= next) := by
  intro disk
  refine Ensures.bind ((h disk).mono ?_ fun _ _ hidle => hidle)
  intro value middle hidle
  exact (hnext value middle).mono (fun _ _ h' => hidle.trans h') fun _ _ h' => hidle.trans h'

/-- Reading a file only looks at it. -/
theorem onlyLooks_read {path : String} : OnlyLooks ((fileSystem faults).read path) :=
  fun disk => (ensures_read disk path).mono (fun _ _ h => h.1) fun _ _ hidle => hidle

theorem onlyLooks_readText {path : String} : OnlyLooks ((fileSystem faults).readText path) := by
  refine onlyLooks_read.bind fun contents => ?_
  cases String.fromUTF8? contents with
  | some text => exact onlyLooks_liftExcept
  | none => exact onlyLooks_liftExcept

/-- Loading a configuration only looks at its file. -/
theorem onlyLooks_loadFile {path : String} :
    OnlyLooks (Config.loadFile (fileSystem faults) path) :=
  ((onlyLooks_readText.adapt _).bind fun _ => onlyLooks_liftExcept).adapt _

/-- Reading a template, or taking the built-in one, only looks at files. -/
theorem onlyLooks_readTemplate {standard : Template} {given : Option String} :
    OnlyLooks (readTemplate (fileSystem faults) standard given) := by
  cases given with
  | none => exact onlyLooks_liftExcept
  | some path => exact (onlyLooks_readText.adapt _).bind fun _ => onlyLooks_liftExcept

/-- Reading the templates only looks at files. -/
theorem onlyLooks_readTemplates {generation : Generation} :
    OnlyLooks (readTemplates (fileSystem faults) generation) :=
  onlyLooks_readTemplate.bind fun _ => onlyLooks_readTemplate.bind fun _ =>
    onlyLooks_readTemplate.bind fun _ => onlyLooks_liftExcept

end Looks

section Generations

variable {generation : Generation}

/-- The configuration is loaded, then the templates are read, and then all texts are made. -/
def Plans (faults : Nat → Option IoFault) (generation : Generation) (disk : Disk)
    (config : Config) (targets : List Target) : Prop :=
  ∃ loaded read templates outputs,
    (Config.loadFile (fileSystem faults) generation.config).run.run disk = (.ok config, loaded) ∧
    (readTemplates (fileSystem faults) generation).run.run loaded = (.ok templates, read) ∧
    config.generate templates = .ok outputs ∧ targets = generation.targets outputs

/-- Making the plan only looks at files, and a plan that is made comes from the configuration
and templates that were read. -/
theorem ensures_plan : Ensures (plan (fileSystem faults) generation) disk
    (fun planned after => disk.Idle after ∧ disk.Plans faults generation planned.1 planned.2)
    fun _ after => disk.Idle after := by
  have hloads := (onlyLooks_loadFile disk).and
    (.run (Config.loadFile (fileSystem faults) generation.config) disk)
  refine Ensures.bind (Ensures.adapt (hloads.mono ?_ fun _ _ h => h.1))
  rintro config loaded ⟨hidle, hload⟩
  have hreads := (onlyLooks_readTemplates loaded).and
    (.run (readTemplates (fileSystem faults) generation) loaded)
  refine Ensures.bind (hreads.mono ?_ fun _ _ h => hidle.trans h.1)
  rintro templates read ⟨hidle', hread⟩
  refine Ensures.bind ?_
  cases houtputs : config.generate templates with
  | error failure => exact .throw (hidle.trans hidle')
  | ok outputs =>
    refine .of_run_ok rfl (.pure ?_)
    exact ⟨hidle.trans hidle', loaded, read, templates, outputs, hload, hread, houtputs, rfl⟩

/-- The output directory is made where it is missing, and nothing else is done to the disk. -/
theorem ensures_prepareOutDir (disk : Disk) (directory : String) :
    Ensures (prepareOutDir (fileSystem faults) directory) disk
      (fun _ after => disk.Stages after []) fun _ after => disk.Stages after [] := by
  refine Ensures.bind (Ensures.lift ?_)
  change Ensures (if disk.kind? directory = some .file then _ else _) disk _ _
  by_cases hkind : disk.kind? directory = some .file
  · rw [if_pos hkind]
    exact .throw (Stages.refl disk)
  · rw [if_neg hkind]
    exact Ensures.adapt (onlyDirectories_createDirectories disk)

/-- Replacing files replaces all or none. A generation does so once a configuration is loaded,
the templates are read and all texts are made; if one of these fails, so does the generation,
and it has done nothing to the disk. -/
theorem all_or_nothing (faults : Nat → Option IoFault) (disk : Disk) (h : disk.Orderly) :
    (∀ targets, Ensures ((fileSystem faults).replaceAll targets) disk
      (fun paths after => paths = targets.map (·.path) ∧ disk.Replaced after targets)
      fun _ after => disk.Untouched after) ∧
    ∀ generation, Ensures (plan (fileSystem faults) generation) disk
      (fun planned middle => disk.Idle middle ∧
        disk.Plans faults generation planned.1 planned.2 ∧
        Ensures (CommandLine.generate (fileSystem faults) generation) disk
          (fun answer after => answer = .generated planned.1.name (planned.2.map (·.path)) ∧
            disk.Replaced after planned.2)
          fun _ after => disk.Untouched after)
      fun failure middle => disk.Idle middle ∧
        (CommandLine.generate (fileSystem faults) generation).run.run disk =
          (.error failure, middle) := by
  refine ⟨ensures_replaceAll h, fun generation => ?_⟩
  refine (ensures_plan.and (.run (plan (fileSystem faults) generation) disk)).mono ?_ ?_
  · -- up to here files were only looked at, and then only directories are made
    rintro ⟨config, targets⟩ middle ⟨⟨hidle, hplans⟩, hrun⟩
    refine ⟨hidle, hplans, Ensures.of_run_bind hrun ?_⟩
    refine Ensures.bind ((ensures_prepareOutDir middle generation.outDir).mono ?_ ?_)
    · intro _ made hmade
      have hstages : disk.Stages made [] := hidle.stages.trans hmade
      have hreplaces := @ensures_replaceAll made faults (hstages.orderly h) targets
      refine Ensures.bind (Ensures.adapt (hreplaces.mono ?_ ?_))
      · rintro _ after ⟨rfl, hreplaced⟩
        exact .pure ⟨rfl, hstages.untouched.replaced hreplaced⟩
      · exact fun _ after huntouched => hstages.untouched.trans huntouched
    · intro _ made hmade
      have hstages : disk.Stages made [] := hidle.stages.trans hmade
      exact hstages.untouched
  · rintro failure middle ⟨hidle, hrun⟩
    exact ⟨hidle, Ensures.run_bind_error hrun⟩

/-- A disk with a file, and a prepared file that another run has left. -/
def desk : Disk where
  entries := [(["keymap.h"], .file "old".toUTF8)]
  prepared := [(0, "draft".toUTF8)]
  counter := 1

/-- Three texts for two files. -/
def drafts : List Target :=
  [⟨"keymap.h", "first"⟩, ⟨"out/kll.json", "\x7b\x7d"⟩, ⟨"./keymap.h", "last"⟩]

/-- One step fails. -/
def failing (step : Nat) : Nat → Option IoFault := fun n => if n = step then some .busy else none

/-- The last of fourteen steps renames the third file. If it fails, all files are untouched, and
if it does not, they are replaced. -/
theorem all_or_nothing_desk : desk.Orderly ∧
    desk.Replaced (((fileSystem (failing 14)).replaceAll drafts).run.run desk).2 drafts ∧
    desk.Untouched (((fileSystem (failing 13)).replaceAll drafts).run.run desk).2 := by
  have horderly : desk.Orderly := by
    intro entry hentry
    rw [List.mem_singleton.mp hentry]
    exact Nat.zero_lt_one
  have hdone : (((fileSystem (failing 14)).replaceAll drafts).run.run desk).1.isOk = true := by
    decide +kernel
  have hfailed : (((fileSystem (failing 13)).replaceAll drafts).run.run desk).1.isOk = false := by
    decide +kernel
  have hreplaces := (all_or_nothing (failing 14) desk horderly).1 drafts
  have hkeeps := (all_or_nothing (failing 13) desk horderly).1 drafts
  obtain ⟨paths, _, hreplaced⟩ := hreplaces.of_isOk hdone
  obtain ⟨fault, huntouched⟩ := hkeeps.of_not_isOk hfailed
  exact ⟨horderly, hreplaced, huntouched⟩

end Generations

end Disk

end Keymap
