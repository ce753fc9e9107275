import Keymap.Failure
import Keymap.FileSystem.Path

/-!
# File systems

What a command may do to files, whatever keeps them. A file is prepared under a
name of its own, and renaming puts it into its place at once, so that nobody
sees a part of it. The actions that undo a run are best effort: there is nothing
left to do when one of them fails.
-/

namespace Keymap

/-- What can stand at a path. -/
inductive FileKind where
  | file
  | directory
  deriving DecidableEq

/-- The actions on files, with prepared files named by `τ`. -/
structure FileSystem (m : Type → Type) (τ : Type) where
  /-- What stands at a path. -/
  kind? : String → m (Option FileKind)
  /-- The contents of a file. -/
  read : String → ExceptT IoFault m ByteArray
  /-- Make a directory in one that exists. -/
  createDirectory : String → ExceptT IoFault m Unit
  /-- Prepare an empty file in a directory. -/
  prepare : String → ExceptT IoFault m τ
  /-- Give a prepared file its contents. -/
  fill : τ → ByteArray → ExceptT IoFault m Unit
  /-- Put a prepared file at a path in place of the file there. -/
  rename : τ → String → ExceptT IoFault m Unit
  /-- Drop a prepared file. -/
  discard : τ → m Unit
  /-- Put former contents back. -/
  restore : String → ByteArray → m Unit
  /-- Remove a file. -/
  remove : String → m Unit

namespace FileSystem

variable {m : Type → Type} [Monad m] {τ : Type} (files : FileSystem m τ)

/-- The text of a file. -/
def readText (path : String) : ExceptT IoFault m String := do
  match String.fromUTF8? (← files.read path) with
  | some text => return text
  | none => throw .notText

/-- Run an action, and a repair if the action fails. -/
def onFailure {m : Type → Type} [Monad m] {ε α : Type} (action : ExceptT ε m α)
    (repair : m Unit) : ExceptT ε m α :=
  ExceptT.mk do
    match ← action.run with
    | .ok value => return .ok value
    | .error error => do
      repair
      return .error error

/-- Make a directory unless it is there already. -/
def ensureDirectory (path : String) : ExceptT IoFault m Unit :=
  ExceptT.mk do
    match ← (files.createDirectory path).run with
    | .error .alreadyExists =>
      if (← files.kind? path) = some .directory then return .ok ()
      else return .error .alreadyExists
    | result => return result

/-- Make a directory; where one is missing that leads to it, make the outer ones first. -/
def ensureDirectories : List String → ExceptT IoFault m Unit
  | [] => pure ()
  | path :: outer =>
    ExceptT.mk do
      match ← (files.ensureDirectory path).run with
      | .error .notFound => do
        match ← (ensureDirectories outer).run with
        | .ok () => (files.ensureDirectory path).run
        | .error fault => return .error fault
      | result => return result

/-- Make a directory and those that lead to it. -/
def createDirectories (path : String) : ExceptT IoFault m Unit :=
  files.ensureDirectories (path :: Path.ancestors path)

end FileSystem

end Keymap
