import Keymap.Document.Written
import Keymap.Yaml.Cursor

/-!
# YAML tags and directives

A tag is a handle and what stands behind it. The handle stands for a beginning
that a directive gives it; the handle of one stroke and that of two have
beginnings of their own unless a directive says otherwise. The bytes of a tag
may be written as escapes, so that a tag need not be a text; a zero byte ends
it.
-/

namespace Keymap.Yaml

/-- A character of the name of an anchor or a handle. -/
def isNameChar (c : Char) : Bool := c.isAlphanum || c = '_' || c = '-'

/-- A character of a tag. Some separators may stand only between angle brackets. -/
def isTagChar (enclosed : Bool) (c : Char) : Bool :=
  isNameChar c || decide (c ∈ ";/?:@&=+$.%!~*'()".toList) ||
    (enclosed && decide (c ∈ [',', '[', ']']))

/-- The byte that an escape writes at the beginning of a text. -/
def escapedByte : List Char → Option (UInt8 × List Char)
  | '%' :: high :: low :: rest => do
    let n ← Text.naturalInBase? 16 [high, low]
    return (n.toUInt8, rest)
  | _ => none

/-- The number of bytes of an encoded character by the first of them. -/
def encodedLength (first : UInt8) : Option Nat :=
  if first &&& 0x80 = 0 then some 1
  else if first &&& 0xE0 = 0xC0 then some 2
  else if first &&& 0xF0 = 0xE0 then some 3
  else if first &&& 0xF8 = 0xF0 then some 4
  else none

/-- The bytes behind the first one of an encoded character. -/
def continuationBytes : (count : Nat) → List Char → Option (List UInt8)
  | 0, _ => some []
  | count + 1, cs => do
    let (byte, rest) ← escapedByte cs
    if byte &&& 0xC0 = 0x80 then return byte :: (← continuationBytes count rest) else none

/-- The bytes of an encoded character, all of them written as escapes. -/
def escapedBytes (cs : List Char) : Option (List UInt8) := do
  let (first, rest) ← escapedByte cs
  let length ← encodedLength first
  return first :: (← continuationBytes (length - 1) rest)

/-- The bytes of a tag, and the place behind it. -/
def readTagBytes (enclosed : Bool) :
    (fuel : Nat) → (bytes : List UInt8) → Cursor → Option (List UInt8 × Cursor)
  | 0, _, _ => none
  | fuel + 1, bytes, cursor =>
    match cursor.rest with
    | [] => some (bytes, cursor)
    | c :: _ =>
      if !isTagChar enclosed c then some (bytes, cursor)
      else if c = '%' then do
        let character ← escapedBytes cursor.rest
        readTagBytes enclosed fuel (bytes ++ character) (cursor.advance (3 * character.length))
      else readTagBytes enclosed fuel (bytes ++ [c.toUInt8]) cursor.next

/-- The bytes that a text begins with, of which there have to be some, up to the first zero. -/
def readTagText (enclosed : Bool) (cursor : Cursor) : Option (List UInt8 × Cursor) := do
  let (bytes, stop) ← readTagBytes enclosed (cursor.rest.length + 1) [] cursor
  if bytes.isEmpty then none else return (bytes.takeWhile (· ≠ 0), stop)

/-- A tag as it is written: a handle, which may be missing, and what stands behind it. -/
structure TagText where
  handle : String
  suffix : List UInt8
  deriving DecidableEq

/-- A handle: names between two strokes, or one stroke. Nothing if the second stroke is
missing behind a name. -/
def readHandle (cursor : Cursor) : Option (String × Cursor) :=
  let (name, stop) := cursor.next.takeWhile isNameChar
  if stop.startsWith "!" then some (String.ofList ('!' :: name ++ ['!']), stop.next)
  else if name.isEmpty then some ("!", stop)
  else none

/-- The bytes of the stroke that begins a handle. -/
def stroke : List UInt8 := "!".toUTF8.toList

/-- A tag behind one stroke; the stroke alone is a tag too. -/
def readShortTag (cursor : Cursor) : Option (TagText × Cursor) := do
  let (bytes, stop) ← readTagBytes false (cursor.rest.length + 1) [] cursor.next
  match bytes.takeWhile (· ≠ 0) with
  | [] => return (⟨"", stroke⟩, stop)
  | suffix => return (⟨"!", suffix⟩, stop)

/-- A tag from its first stroke on. -/
def readTagAt (cursor : Cursor) : Option (TagText × Cursor) :=
  if cursor.startsWith "!<" then do
    let (suffix, stop) ← readTagText true (cursor.advance 2)
    if stop.startsWith ">" then return (⟨"", suffix⟩, stop.next) else none
  else
    match readHandle cursor with
    | some (handle, stop) =>
      if handle = "!" then readShortTag cursor
      else do
        let (suffix, stop) ← readTagText false stop
        return (⟨handle, suffix⟩, stop)
    | none => readShortTag cursor

/-- What a directive says. -/
inductive Directive where
  /-- The version of the language. -/
  | version (major minor : Nat)
  /-- What a handle stands for. -/
  | handle (name : String) (beginning : List UInt8)
  deriving DecidableEq

namespace Directive

/-- The greatest number of digits of a version. -/
def maxVersionDigits : Nat := 9

/-- A number of a version. -/
def readNumber (cursor : Cursor) : Option (Nat × Cursor) := do
  let (digits, stop) := cursor.takeWhile Char.isDigit
  if maxVersionDigits < digits.length then none
  else return (← Text.naturalInBase? 10 digits, stop)

/-- The version that a directive says. -/
def readVersion (cursor : Cursor) : Option (Directive × Cursor) := do
  let (major, point) ← readNumber (cursor.dropWhile isBlank)
  if point.startsWith "." then
    let (minor, stop) ← readNumber point.next
    return (.version major minor, stop)
  else none

/-- The handle that a directive gives a meaning. -/
def readMeaning (cursor : Cursor) : Option (Directive × Cursor) := do
  let start := cursor.dropWhile isBlank
  if start.startsWith "!" then
    let (name, behind) ← readHandle start
    if behind.rest.head?.any isBlank then
      let (beginning, stop) ← readTagText true (behind.dropWhile isBlank)
      if endsWord stop.rest then return (.handle name beginning, stop) else none
    else none
  else none

/-- A line with a directive behind its first character, up to the end of the line. -/
def read (cursor : Cursor) : Option (Directive × Cursor) := do
  let (name, behind) := cursor.takeWhile isNameChar
  if !endsWord behind.rest then none
  else
    let (directive, stop) ← match String.ofList name with
      | "YAML" => readVersion behind
      | "TAG" => readMeaning behind
      | _ => none
    let stop := stop.dropWhile isBlank
    let stop := if stop.startsWith "#" then stop.dropWhile (!isBreak ·) else stop
    match stop.rest with
    | [] => return (directive, stop)
    | c :: _ => if isBreak c then return (directive, stop.next) else none

/-- The directives have one version at most, which is known, and one meaning for every handle. -/
def consistent (directives : List Directive) : Bool :=
  let versions : List (Nat × Nat) := directives.filterMap fun directive =>
    match directive with
    | .version major minor => some (major, minor)
    | .handle _ _ => none
  let handles : List String := directives.filterMap fun directive =>
    match directive with
    | .version _ _ => none
    | .handle name _ => some name
  decide (versions.length ≤ 1) && versions.all (fun v => v = (1, 1) || v = (1, 2)) &&
    decide handles.Nodup

/-- The beginning of the tags of the basic types. -/
def basic : String := "tag:yaml.org,2002:"

/-- What a handle stands for. -/
def meaning? (directives : List Directive) (handle : String) : Option (List UInt8) :=
  let said := directives.findSome? fun directive =>
    match directive with
    | .version _ _ => none
    | .handle name beginning => if name = handle then some beginning else none
  said <|> ([("!", stroke), ("!!", basic.toUTF8.toList)].lookup handle)

end Directive

/-- The tag that bytes are. -/
def tagOfBytes (bytes : List UInt8) : Tag :=
  if bytes = (Directive.basic ++ "bool").toUTF8.toList then .boolean
  else if bytes = (Directive.basic ++ "int").toUTF8.toList then .integer
  else if bytes = (Directive.basic ++ "float").toUTF8.toList then .fraction
  else if bytes = (Directive.basic ++ "null").toUTF8.toList then .nothing
  else if bytes.head? = stroke.head? then
    let name := if bytes.length = 1 then bytes else bytes.drop 1
    match String.fromUTF8? ⟨name.toArray⟩ with
    | some name => .variant name
    | none => .garbled
  else .foreign

/-- The tag that is written; nothing if its handle has no meaning. -/
def TagText.resolve (tag : TagText) (directives : List Directive) : Option Tag :=
  if tag.handle = "" then some (tagOfBytes tag.suffix)
  else (Directive.meaning? directives tag.handle).map fun beginning =>
    tagOfBytes (beginning ++ tag.suffix)

example : (readTagAt ⟨"!s%65t ".toList, 0, 0, 0⟩).bind (·.1.resolve []) =
    some (.variant "set") := by
  decide +kernel

example : (readTagAt ⟨"!!int".toList, 0, 0, 0⟩).bind (·.1.resolve []) = some .integer := by
  decide +kernel

example : (readTagAt ⟨"!a!b".toList, 0, 0, 0⟩).bind (·.1.resolve []) = none := by
  decide +kernel

end Keymap.Yaml
