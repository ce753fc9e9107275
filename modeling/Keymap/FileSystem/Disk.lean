import Keymap.FileSystem.Basic

/-!
# A file system in memory

A disk holds directories and files by their locations, which are the names on
the way from the root. Prepared files are kept apart until they are renamed. A
run on a disk may be given faults: one for each of its steps that shall fail
although the disk allows it. The actions that undo a run are no such steps.
-/

namespace Keymap

/-- The names on the way from the root. -/
abbrev Disk.Location := List String

/-- What stands at a location. -/
inductive Disk.Entry where
  | directory
  | file (contents : ByteArray)
  deriving DecidableEq

/-- Directories, files, and prepared files. -/
structure Disk where
  entries : List (Disk.Location × Disk.Entry) := []
  /-- The current directory. -/
  current : Disk.Location := []
  prepared : List (Nat × ByteArray) := []
  /-- The number of prepared files so far. -/
  counter : Nat := 0
  /-- The number of steps so far. -/
  steps : Nat := 0

namespace Disk

/-- What stands at a location. The root is a directory. -/
def lookup (disk : Disk) (location : Location) : Option Entry :=
  if location = [] then some .directory else disk.entries.lookup location

/-- The contents of the file at a location. -/
def contents? (disk : Disk) (location : Location) : Option ByteArray :=
  match disk.lookup location with
  | some (.file contents) => some contents
  | _ => none

/-- The disk without what stands at a location. -/
def erase (disk : Disk) (location : Location) : Disk :=
  { disk with entries := disk.entries.filter fun entry => entry.1 ≠ location }

/-- The disk with something at a location. -/
def put (disk : Disk) (location : Location) (entry : Entry) : Disk :=
  { disk with entries := (disk.erase location).entries ++ [(location, entry)] }

/-- The disk without a prepared file. -/
def drop (disk : Disk) (file : Nat) : Disk :=
  { disk with prepared := disk.prepared.filter fun entry => entry.1 ≠ file }

/-- The disk with the directories to a location, and a file there. -/
def withFile (disk : Disk) (location : Location) (contents : ByteArray) : Disk :=
  let ways := (List.range location.length).drop 1 |>.map location.take
  (ways.foldl (fun disk way => disk.put way .directory) disk).put location (.file contents)

/-- What is erased is gone. -/
theorem entries_lookup_erase_self (disk : Disk) (location : Location) :
    (disk.erase location).entries.lookup location = none := by
  simp only [erase, List.lookup_eq_none_iff]
  intro entry hentry
  have kept : entry.1 ≠ location := by simpa using (List.mem_filter.1 hentry).2
  simpa using kept.symm

/-- What is not erased stays. -/
theorem entries_lookup_erase_of_ne (disk : Disk) {location other : Location}
    (h : other ≠ location) :
    (disk.erase location).entries.lookup other = disk.entries.lookup other := by
  simp only [erase]
  induction disk.entries with
  | nil => rfl
  | cons entry rest ih =>
    obtain ⟨name, value⟩ := entry
    by_cases here : name = location
    · have missed : (other == location) = false := by simpa using h
      simpa [List.lookup_cons, here, missed] using ih
    · simp only [List.filter_cons, here, ne_eq, not_false_eq_true, decide_true, if_true,
        List.lookup_cons, ih]

/-- Only one location loses what stands there. -/
theorem lookup_erase (disk : Disk) {location : Location} (h : location ≠ []) (other : Location) :
    (disk.erase location).lookup other =
      if other = location then none else disk.lookup other := by
  by_cases same : other = location
  · simp [lookup, same, h, entries_lookup_erase_self]
  · simp [lookup, same, entries_lookup_erase_of_ne]

/-- Only one location changes what stands there. -/
theorem lookup_put (disk : Disk) {location : Location} (h : location ≠ []) (entry : Entry)
    (other : Location) :
    (disk.put location entry).lookup other =
      if other = location then some entry else disk.lookup other := by
  by_cases same : other = location
  · simp [lookup, put, same, h, List.lookup_append, entries_lookup_erase_self]
  · have missed : List.lookup other [(location, entry)] = none := by simp [same]
    simp [lookup, put, same, List.lookup_append, entries_lookup_erase_of_ne, missed]

/-! ## Ways -/

/-- The greatest number of bytes of a name. -/
def maxName : Nat := 255

/-- The greatest number of bytes of a path. -/
def maxPath : Nat := 4095

/-- The location of a name in a directory. -/
def inside (directory : Location) (name : String) : Except IoFault Location :=
  if maxName < name.utf8ByteSize then .error .nameTooLong else .ok (directory ++ [name])

/-- The location to which steps lead from another. A step can be made from a directory only. -/
def walk (disk : Disk) (location : Location) : List String → Except IoFault Location
  | [] => .ok location
  | step :: rest =>
    match disk.lookup location with
    | none => .error .notFound
    | some (.file _) => .error .notDirectory
    | some .directory =>
      if step = "" || step = "." then disk.walk location rest
      else if step = ".." then disk.walk location.dropLast rest
      else
        match inside location step with
        | .ok location => disk.walk location rest
        | .error fault => .error fault

/-- Where the way of a path begins. -/
def start (disk : Disk) (path : String) : Location :=
  if Path.isAbsolute path then [] else disk.current

/-- A path can be followed at all. -/
def checkPath (path : String) : Except IoFault Unit :=
  if '\x00' ∈ path.toList then .error .zeroByte
  else if path = "" then .error .notFound
  else if maxPath < path.utf8ByteSize then .error .nameTooLong
  else .ok ()

/-- The location to which a path leads. -/
def locate (disk : Disk) (path : String) : Except IoFault Location := do
  checkPath path
  disk.walk (disk.start path) (Path.steps path)

/-- What a path leads to. -/
def find (disk : Disk) (path : String) : Except IoFault (Location × Entry) := do
  let location ← disk.locate path
  match disk.lookup location with
  | some entry => return (location, entry)
  | none => throw .notFound

/-- A place in a directory, where something can stand or be put. -/
inductive Place where
  /-- A location, and whether a stroke behind the path says that it is a directory. -/
  | named (location : Location) (slash : Bool)
  /-- The root, or a directory by a point or two. -/
  | special

/-- The place to which a path leads, provided that its directory is there. -/
def place (disk : Disk) (path : String) : Except IoFault Place := do
  checkPath path
  let behind := (Path.steps path).reverse
  match behind.dropWhile (· = "") with
  | [] => return .special
  | name :: way =>
    let directory ← disk.walk (disk.start path) (way.reverse ++ [""])
    if name = "." || name = ".." then return .special
    else return .named (← inside directory name) (decide (behind.head? = some ""))

/-! ## Actions -/

/-- The contents of the file to which a path leads. -/
def read (disk : Disk) (path : String) : Except IoFault ByteArray := do
  match ← disk.find path with
  | (_, .file contents) => return contents
  | (_, .directory) => throw .isDirectory

/-- What stands at a path. -/
def kind? (disk : Disk) (path : String) : Option FileKind :=
  match disk.find path with
  | .ok (_, .file _) => some .file
  | .ok (_, .directory) => some .directory
  | .error _ => none

/-- The disk with a directory at a path where nothing stands. -/
def createDirectory (disk : Disk) (path : String) : Except IoFault Disk := do
  match ← disk.place path with
  | .special => throw .alreadyExists
  | .named location _ =>
    if (disk.lookup location).isSome then throw .alreadyExists
    else return disk.put location .directory

/-- The disk with an empty prepared file in a directory, and its number. -/
def prepare (disk : Disk) (directory : String) : Except IoFault (Disk × Nat) := do
  match ← disk.find directory with
  | (_, .file _) => throw .notDirectory
  | (_, .directory) =>
    return ({ disk with
      prepared := disk.prepared ++ [(disk.counter, .empty)]
      counter := disk.counter + 1 }, disk.counter)

/-- The disk with contents in a prepared file. -/
def fill (disk : Disk) (file : Nat) (contents : ByteArray) : Except IoFault Disk :=
  match disk.prepared.lookup file with
  | none => .error .notFound
  | some _ =>
    .ok { disk with
      prepared := disk.prepared.map fun entry =>
        if entry.1 = file then (file, contents) else entry }

/-- The disk with a prepared file at a path, in place of the file there. -/
def rename (disk : Disk) (file : Nat) (path : String) : Except IoFault Disk :=
  match disk.prepared.lookup file with
  | none => .error .notFound
  | some contents => do
    match ← disk.place path with
    | .special => throw .busy
    | .named _ true => throw .notDirectory
    | .named location false =>
      if disk.lookup location = some .directory then throw .isDirectory
      else return (disk.drop file).put location (.file contents)

/-- The disk with contents in the file at a path, unless a directory stands there. -/
def restore (disk : Disk) (path : String) (contents : ByteArray) : Disk :=
  match disk.place path with
  | .ok (.named location false) =>
    if disk.lookup location = some .directory then disk
    else disk.put location (.file contents)
  | _ => disk

/-- The disk without the file at a path. -/
def remove (disk : Disk) (path : String) : Disk :=
  match disk.find path with
  | .ok (location, .file _) => disk.erase location
  | _ => disk

/-! ## Runs -/

/-- A step that fails if it is given a fault, and is made otherwise if the disk allows it. -/
def step (faults : Nat → Option IoFault) {α : Type} (action : Disk → Except IoFault (Disk × α)) :
    ExceptT IoFault (StateM Disk) α := fun disk =>
  let next : Disk := { disk with steps := disk.steps + 1 }
  match faults disk.steps with
  | some fault => (.error fault, next)
  | none =>
    match action next with
    | .ok (disk, value) => (.ok value, disk)
    | .error fault => (.error fault, next)

/-- The actions on a disk, of which some steps are given faults. -/
def fileSystem (faults : Nat → Option IoFault) : FileSystem (StateM Disk) Nat where
  kind? path disk := (disk.kind? path, disk)
  read path := step faults fun disk => return (disk, ← disk.read path)
  createDirectory path := step faults fun disk => return (← disk.createDirectory path, ())
  prepare directory := step faults fun disk => disk.prepare directory
  fill file contents := step faults fun disk => return (← disk.fill file contents, ())
  rename file path := step faults fun disk => return (← disk.rename file path, ())
  discard file disk := ((), disk.drop file)
  restore path contents disk := ((), disk.restore path contents)
  remove path disk := ((), disk.remove path)

/-- The actions on a disk without faults. -/
def sound : FileSystem (StateM Disk) Nat := fileSystem fun _ => none

end Disk

end Keymap
