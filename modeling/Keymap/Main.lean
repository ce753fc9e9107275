import Keymap.CommandLine.Printing

/-!
# The program

Runs the invocation by its arguments on the files of the machine.
-/

namespace Keymap.Machine

/-- What the machine answers by the number and the wording of its error. Some actions give the
number with a minus. -/
def faultOfCode (code : UInt32) (details : String) : IoFault :=
  match min code (0 - code) with
  | 2 => .notFound
  | 16 => .busy
  | 17 => .alreadyExists
  | 20 => .notDirectory
  | 21 => .isDirectory
  | 36 => .nameTooLong
  | code => .described s!"{details} (os error {code})"

/-- What the machine answers by an error. -/
def fault : IO.Error → IoFault
  | .alreadyExists _ code details
  | .interrupted _ code details
  | .noFileOrDirectory _ code details
  | .invalidArgument _ code details
  | .permissionDenied _ code details
  | .resourceExhausted _ code details
  | .inappropriateType _ code details
  | .noSuchThing _ code details
  | .otherError code details
  | .resourceBusy code details
  | .resourceVanished code details
  | .unsupportedOperation code details
  | .hardwareFault code details
  | .unsatisfiedConstraints code details
  | .illegalOperation code details
  | .protocolError code details
  | .timeExpired code details => faultOfCode code details
  | .unexpectedEof => .described "unexpected end of file"
  | .userError message => .described message

/-- An action of the machine, with its error as a fault. -/
def attempt {α : Type} (action : IO α) : ExceptT IoFault IO α :=
  ExceptT.mk do
    match ← EIO.toBaseIO action with
    | .ok value => return .ok value
    | .error error => return .error (fault error)

/-- An action of the machine without regard to its error. -/
def ignore {α : Type} (action : IO α) : IO Unit := do
  match ← EIO.toBaseIO action with
  | .ok _ | .error _ => return ()

/-- A file can be opened at a path. A directory can be opened like one. -/
def opens (path : String) : IO Bool := do
  match ← EIO.toBaseIO (IO.FS.Handle.mk path .read) with
  | .ok _ => return true
  | .error _ => return false

/-- What stands at a path. Only a directory has a point in it. -/
def kind? (path : String) : IO (Option FileKind) := do
  if path = "" then return none
  else if ← opens (path ++ "/.") then return some .directory
  else if ← opens path then return some .file
  else return none

/-- Make an empty file in a directory, under the first name that is free from a number on. -/
def prepareFrom (directory : String) (number : Nat) : Nat → ExceptT IoFault IO String
  | 0 => throw .alreadyExists
  | tries + 1 => ExceptT.mk do
    let path := Path.join directory (".tmp" ++ toString number)
    match ← EIO.toBaseIO (IO.FS.Handle.mk path .writeNew) with
    | .ok _ => return .ok path
    | .error (.alreadyExists ..) => (prepareFrom directory (number + 1) tries).run
    | .error error => return .error (fault error)

/-- Make an empty file in a directory. -/
def prepare (directory : String) : ExceptT IoFault IO String := do
  prepareFrom directory (← attempt (IO.rand 0 999999)) 1000

/-- Put former contents back, in one step as they were replaced. -/
def restore (path : String) (contents : ByteArray) : IO Unit := do
  match ← (prepare (Path.parent path)).run with
  | .error _ => return ()
  | .ok file =>
    ignore do
      IO.FS.writeBinFile file contents
      IO.FS.rename file path

/-- The files of the machine. -/
def files : FileSystem IO String where
  kind? := kind?
  read path := attempt (IO.FS.readBinFile path)
  createDirectory path := attempt (IO.FS.createDir path)
  prepare := prepare
  fill file contents := attempt (IO.FS.writeBinFile file contents)
  rename file path := attempt (IO.FS.rename file path)
  discard file := ignore (IO.FS.removeFile file)
  restore := restore
  remove path := ignore (IO.FS.removeFile path)

end Keymap.Machine

/-- Run the invocation by the arguments. -/
def main (arguments : List String) : IO UInt32 := do
  let environment ← IO.getEnv "KLLGEN_OUT_DIR"
  match Keymap.CommandLine.Invocation.ofWords environment arguments with
  | .error fault => do
    (← IO.getStderr).putStrLn ("error: " ++ fault.message)
    return 2
  | .ok invocation => do
    let printed ← invocation.run Keymap.Machine.files
    (← IO.getStdout).putStr printed.output
    (← IO.getStderr).putStr printed.errors
    return printed.code.toUInt32
