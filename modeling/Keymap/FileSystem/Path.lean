/-!
# Paths

A path leads to a file through directories, with a stroke behind each of them.
Empty parts and points say nothing, except that a path may begin with a point.
-/

namespace Keymap.Path

/-- What stands before, between and behind the separators of a text. -/
def pieces (separator : Char) : List Char → List (List Char)
  | [] => [[]]
  | c :: rest =>
    if c = separator then [] :: pieces separator rest
    else
      match pieces separator rest with
      | [] => [[c]]
      | piece :: more => (c :: piece) :: more

/-- All that stands between the strokes of a path. -/
def steps (path : String) : List String := (pieces '/' path.toList).map String.ofList

/-- The parts of a path that say something, and a point if it begins the path. -/
def parts (path : String) : List String :=
  match steps path with
  | [] => []
  | first :: rest =>
    (if first = "" then [] else [first]) ++ rest.filter fun part => part ≠ "" && part ≠ "."

/-- The path begins at the root. -/
def isAbsolute (path : String) : Bool := path.toList.head? = some '/'

/-- The path made of parts. -/
def ofParts (absolute : Bool) (parts : List String) : String :=
  (if absolute then "/" else "") ++ String.intercalate "/" parts

/-- The paths to the directories on the way, from the last one to the first. -/
def ancestors (path : String) : List String :=
  let parts := parts path
  (List.range (parts.length - 1)).reverse.map fun k =>
    ofParts (isAbsolute path) (parts.take (k + 1))

/-- The path to the directory that holds what a path names; the current directory holds
what has no other. -/
def parent (path : String) : String :=
  let parts := parts path
  let directory := ofParts (isAbsolute path && !parts.isEmpty) parts.dropLast
  if directory = "" then "." else directory

/-- The path to a name in a directory. -/
def join (directory name : String) : String :=
  if directory.toList.getLast? = some '/' then directory ++ name else directory ++ "/" ++ name

/-- The text behind the last point of the last part of a path. -/
def extension? (path : String) : Option String :=
  match (parts path).getLast? with
  | none => none
  | some name =>
    if name = ".." then none
    else
      match (pieces '.' name.toList).reverse with
      | [] | [_] => none
      | last :: before => if before = [[]] then none else some (String.ofList last)

example : parts "a//b/./c/" = ["a", "b", "c"] := by decide +kernel

example : ancestors "/a/b/c" = ["/a/b", "/a"] := by decide +kernel

example : parent "kll.json" = "." ∧ parent "./a" = "." ∧ parent "/a" = "/" ∧ parent "/" = "." := by
  decide +kernel

example : extension? "a.b/.c" = none ∧ extension? "a.tar.gz/" = some "gz" := by decide +kernel

end Keymap.Path
