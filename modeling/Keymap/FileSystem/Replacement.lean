import Keymap.FileSystem.Basic

/-!
# Replacing files, all or none

Every text is prepared beside the file that it replaces before the first file is
replaced. When a later file cannot be replaced, the earlier ones get back what
they held, the last one first; a file that was not there is removed again. What
a file holds is kept from before the first replacement, so that a path which
is named twice gets back what it held before both.
-/

namespace Keymap

/-- A text and the path of the file that shall hold it. -/
structure Target where
  path : String
  text : String
  deriving DecidableEq

/-- A file that could not be replaced. -/
structure WriteFault where
  path : String
  fault : IoFault

/-- A prepared file, its path, and what the file at the path held. -/
structure Prepared (τ : Type) where
  file : τ
  path : String
  previous : Option ByteArray

namespace FileSystem

variable {m : Type → Type} [Monad m] {τ : Type} (files : FileSystem m τ)

/-- What the file at a path holds, nothing if there is no file. -/
def readPrevious (path : String) : ExceptT IoFault m (Option ByteArray) := do
  if (← files.kind? path) = some .file then return some (← files.read path) else return none

/-- Prepare the replacement of one file. -/
def prepareTarget (target : Target) : ExceptT IoFault m (Prepared τ) := do
  let directory := Path.parent target.path
  files.createDirectories directory
  let file ← files.prepare directory
  onFailure
    (do
      files.fill file target.text.toUTF8
      return ⟨file, target.path, ← files.readPrevious target.path⟩)
    (files.discard file)

/-- Prepare the replacement of files, or of none. -/
def prepareAll : List Target → ExceptT WriteFault m (List (Prepared τ))
  | [] => pure []
  | target :: rest => do
    let prepared ← (files.prepareTarget target).adapt (WriteFault.mk target.path)
    return prepared :: (← onFailure (prepareAll rest) (files.discard prepared.file))

/-- Drop prepared files. -/
def discardAll : List (Prepared τ) → m Unit
  | [] => pure ()
  | prepared :: rest => do
    files.discard prepared.file
    discardAll rest

/-- Give a path back what it held. -/
def undo (prepared : Prepared τ) : m Unit :=
  match prepared.previous with
  | some contents => files.restore prepared.path contents
  | none => files.remove prepared.path

/-- Put prepared files into their places, or none. -/
def installAll : List (Prepared τ) → ExceptT WriteFault m Unit
  | [] => pure ()
  | prepared :: rest => do
    onFailure
      ((files.rename prepared.file prepared.path).adapt (WriteFault.mk prepared.path))
      (files.discardAll (prepared :: rest))
    onFailure (installAll rest) (files.undo prepared)

/-- Replace files by texts, all or none, and tell their paths. -/
def replaceAll (targets : List Target) : ExceptT WriteFault m (List String) := do
  files.installAll (← files.prepareAll targets)
  return targets.map Target.path

end FileSystem

end Keymap
