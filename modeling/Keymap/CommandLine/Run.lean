import Keymap.CommandLine.Arguments
import Keymap.Config.Load
import Keymap.FileSystem.Replacement
import Keymap.Generate

/-!
# Running commands

A generation loads the configuration, reads the templates, and makes all texts
before it touches the file system; then it replaces its outputs, all or none. A
check only tells what the tables are like, and fails if they cannot be used. A
command fails with the run that it starts, or at a file that it needs besides the
configuration.
-/

namespace Keymap.CommandLine

/-- Why a command ends without a result. -/
inductive Failure where
  | run (failure : Keymap.Failure)
  | template (path : String) (fault : IoFault)
  | output (path : String) (fault : IoFault)
  | outputDirectory (path : String)

namespace Failure

/-- The failure of a file that could not be replaced. -/
def ofWrite (fault : WriteFault) : Failure := .output fault.path fault.fault

/-- The wording of a failure. -/
def message : Failure → String
  | .run failure => failure.message
  | .template path fault => s!"Cannot read template {path}: " ++ fault.message
  | .output path fault => s!"Cannot write {path}: " ++ fault.message
  | .outputDirectory path => s!"Output directory {path} is not a directory"

/-- The class of a failure. -/
def category : Failure → Category
  | .run failure => failure.category
  | _ => .io

/-- The status with which a command ends after the failure. -/
def exitCode (failure : Failure) : Nat := failure.category.exitCode

/-- What stands behind a failure, if its wording has more to it. -/
def cause? : Failure → Option String
  | .run failure => failure.cause?
  | .template _ fault | .output _ fault => some fault.message
  | .outputDirectory _ => none

/-- The findings of a run that failed for them. -/
def report? : Failure → Option Report
  | .run (.validation report) => some report
  | _ => none

end Failure

/-- What a command answers. -/
inductive Answer where
  | generated (name : String) (paths : List String)
  | valid (name : String) (report : Report)
  | placeholders

variable {m : Type → Type} [Monad m] {τ : Type}

/-- The result of a run. -/
def ofRun {α : Type} (result : Except Keymap.Failure α) : ExceptT Failure m α :=
  ExceptT.mk (pure (result.mapError .run))

/-- The template in a file, or a standard one if no file is given. -/
def readTemplate (files : FileSystem m τ) (standard : Template) :
    Option String → ExceptT Failure m Template
  | none => pure standard
  | some path => do
    let text ← (files.readText path).adapt (Failure.template path)
    ofRun ((Template.ofText path text).mapError .template)

/-- The templates of a generation. -/
def readTemplates (files : FileSystem m τ) (generation : Generation) :
    ExceptT Failure m Templates := do
  let keymap ← readTemplate files Templates.standard.keymap generation.mapTemplate
  let pixelMap ← readTemplate files Templates.standard.pixelMap generation.pixelTemplate
  let defines ← readTemplate files Templates.standard.defines generation.defTemplate
  return { keymap, pixelMap, defines }

/-- The files that shall hold the outputs of a generation. -/
def Generation.targets (generation : Generation) (outputs : Outputs) : List Target :=
  let path (given : Option String) (name : String) : String :=
    given.getD (Path.join generation.outDir name)
  [⟨path generation.mapOutput "generatedKeymap.h", outputs.keymap⟩,
   ⟨path generation.pixelOutput "generatedPixelmap.c", outputs.pixelMap⟩,
   ⟨path generation.defOutput "kll_defs.h", outputs.defines⟩,
   ⟨path generation.jsonOutput "kll.json", outputs.json⟩]

/-- Make the output directory unless it is there. -/
def prepareOutDir (files : FileSystem m τ) (directory : String) : ExceptT Failure m Unit := do
  if (← files.kind? directory) = some .file then throw (.outputDirectory directory)
  else (files.createDirectories directory).adapt (Failure.output directory)

/-- The configuration, and the texts of a generation with the files that shall hold them. -/
def plan (files : FileSystem m τ) (generation : Generation) :
    ExceptT Failure m (Config × List Target) := do
  let config ← (Config.loadFile files generation.config).adapt Failure.run
  let templates ← readTemplates files generation
  let outputs ← ofRun (config.generate templates)
  return (config, generation.targets outputs)

/-- Write the outputs of a generation. -/
def generate (files : FileSystem m τ) (generation : Generation) : ExceptT Failure m Answer := do
  let (config, targets) ← plan files generation
  prepareOutDir files generation.outDir
  let paths ← (files.replaceAll targets).adapt Failure.ofWrite
  return .generated config.name paths

/-- Tell what the tables of a configuration are like. -/
def check (files : FileSystem m τ) (path : String) : ExceptT Failure m Answer := do
  let config ← (Config.loadFile files path).adapt Failure.run
  return .valid config.name (← ofRun config.check.toExcept)

/-- Run a command. -/
def Command.run (files : FileSystem m τ) : Command → ExceptT Failure m Answer
  | .generate generation => CommandLine.generate files generation
  | .check config => CommandLine.check files config
  | .placeholders => pure .placeholders

end Keymap.CommandLine
