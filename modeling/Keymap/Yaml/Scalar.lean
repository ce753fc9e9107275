import Keymap.Text.Numerals
import Keymap.Yaml.Cursor

/-!
# YAML scalars

A scalar that runs over several lines is folded: the first line break between
two words becomes a blank, unless others follow it, and these are kept. A block
scalar keeps all its lines or folds them too, and says what happens to the line
breaks at its end. Every reader gives the text of the scalar and the place
behind it, or nothing if the scalar is malformed.
-/

namespace Keymap.Yaml

/-- What a first line break and those behind it stand for. -/
def foldBreaks : List Char → List Char
  | [] => []
  | '\n' :: [] => [' ']
  | '\n' :: rest => rest
  | breaks => breaks

/-- What the characters between two words stand for. -/
def foldGap (gap : List Char) : List Char :=
  let breaks := gap.filter isBreak
  if breaks.isEmpty then gap else foldBreaks breaks

/-- Behind its first line break the gap has a tab before a column. -/
def hasEarlyTab (column : Nat) (gap : List Char) : Bool :=
  let lines := (gap.splitBy fun _ c => !isBreak c).filter fun line => (line.head?.any isBreak)
  lines.any fun line => ((line.drop 1).take column).contains '\t'

/-- Characters that end a word inside brackets. -/
def isFlowIndicator (c : Char) : Bool := decide (c ∈ [',', '[', ']', '\x7b', '\x7d'])

/-- The next word of a plain scalar; nothing if a colon stands before an
indicator inside brackets. -/
def plainWord (inFlow : Bool) : List Char → Option (List Char)
  | [] => some []
  | c :: rest =>
    if isGap c then some []
    else if inFlow && c = ':' && rest.head?.any (fun d => isFlowIndicator d || d = '?') then none
    else if c = ':' && endsWord rest then some []
    else if inFlow && isFlowIndicator c then some []
    else (plainWord inFlow rest).map (c :: ·)

/-- A scalar with the place behind it, and whether a line break stands between them. -/
structure PlainScalar where
  text : List Char
  stop : Cursor
  brokeLine : Bool

/-- A plain scalar from its next word on. -/
def readPlain (inFlow : Bool) (indent : Nat) :
    (fuel : Nat) → (text : List Char) → Cursor → Option PlainScalar
  | 0, _, _ => none
  | fuel + 1, text, cursor => do
    let word ← plainWord inFlow cursor.rest
    let text := text ++ word
    let (gap, behind) := (cursor.advance word.length).takeWhile isGap
    let brokeLine := gap.any isBreak
    if hasEarlyTab indent gap then none
    else
      let ends := gap.isEmpty || behind.rest.isEmpty || behind.atDocumentMark ||
        behind.startsWith "#" || (!inFlow && brokeLine && decide (behind.column < indent))
      if ends then return ⟨text, behind, brokeLine⟩
      else
        match ← plainWord inFlow behind.rest with
        | [] => return ⟨text, behind, brokeLine⟩
        | _ => readPlain inFlow indent fuel (text ++ foldGap gap) behind

/-- The character that an escape by one letter stands for. -/
def escapedChar (c : Char) : Option Char :=
  match c with
  | '0' => some '\x00'
  | 'a' => some '\x07'
  | 'b' => some '\x08'
  | 't' | '\t' => some '\t'
  | 'n' => some '\n'
  | 'v' => some '\x0b'
  | 'f' => some '\x0c'
  | 'r' => some '\r'
  | 'e' => some '\x1b'
  | ' ' | '"' | '/' | '\\' => some c
  | 'N' => some '\u0085'
  | '_' => some '\u00a0'
  | 'L' => some '\u2028'
  | 'P' => some '\u2029'
  | _ => none

/-- The digits of an escape by the number of a character. -/
def escapeWidth (c : Char) : Option Nat :=
  match c with
  | 'x' => some 2
  | 'u' => some 4
  | 'U' => some 8
  | _ => none

/-- The character that digits of a fixed width write. -/
def numberedChar (width : Nat) (cs : List Char) : Option Char := do
  let digits := cs.take width
  if digits.length < width then none
  else
    let n ← Text.naturalInBase? 16 digits
    if n.isValidChar then some (Char.ofNat n) else none

/-- What an escape stands for, and the number of characters behind the backslash. -/
def escape? : List Char → Option (Char × Nat)
  | [] => none
  | c :: rest =>
    match escapeWidth c with
    | some width => (numberedChar width rest).map (·, width + 1)
    | none => (escapedChar c).map (·, 1)

/-- The rest of a scalar in single quotes. -/
def readSingle : (fuel : Nat) → (text : List Char) → Cursor → Option (List Char × Cursor)
  | 0, _, _ => none
  | fuel + 1, text, cursor =>
    if cursor.atDocumentMark then none
    else
      match cursor.rest with
      | [] => none
      | '\'' :: '\'' :: _ => readSingle fuel (text ++ ['\'']) (cursor.advance 2)
      | '\'' :: _ => some (text, cursor.next)
      | c :: _ =>
        if isGap c then
          let (gap, behind) := cursor.takeWhile isGap
          readSingle fuel (text ++ foldGap gap) behind
        else readSingle fuel (text ++ [c]) cursor.next

/-- The rest of a scalar in double quotes. A backslash at the end of a line
takes the line break away, and the blanks of the next line with it. -/
def readDouble : (fuel : Nat) → (text : List Char) → Cursor → Option (List Char × Cursor)
  | 0, _, _ => none
  | fuel + 1, text, cursor =>
    if cursor.atDocumentMark then none
    else
      match cursor.rest with
      | [] => none
      | '"' :: _ => some (text, cursor.next)
      | '\\' :: rest =>
        if rest.head?.any isBreak then
          let (gap, behind) := (cursor.advance 2).takeWhile isGap
          readDouble fuel (text ++ gap.filter isBreak) behind
        else
          match escape? rest with
          | none => none
          | some (c, count) => readDouble fuel (text ++ [c]) (cursor.advance (count + 1))
      | c :: _ =>
        if isGap c then
          let (gap, behind) := cursor.takeWhile isGap
          readDouble fuel (text ++ foldGap gap) behind
        else readDouble fuel (text ++ [c]) cursor.next

/-- What happens to the line breaks at the end of a block scalar. -/
inductive Chomping where
  | clip
  | strip
  | keep
  deriving DecidableEq

/-- The first line of a block scalar. -/
structure BlockHeader where
  chomping : Chomping := .clip
  /-- The indentation of the lines in addition to that of the block. -/
  increment : Option Nat := none

/-- The chomping that a character writes. -/
def chomping? (c : Char) : Option Chomping :=
  if c = '-' then some .strip else if c = '+' then some .keep else none

/-- The increment that a character writes. -/
def increment? (c : Char) : Option Nat :=
  if c.isDigit && c ≠ '0' then some (Text.digitValue c) else none

/-- The chomping and the increment behind the indicator, in either order, and
the number of their characters. -/
def blockHeader : List Char → BlockHeader × Nat
  | [] => ({}, 0)
  | c :: rest =>
    match chomping? c, increment? c with
    | some chomping, _ =>
      match rest.head?.bind increment? with
      | some n => (⟨chomping, some n⟩, 2)
      | none => (⟨chomping, none⟩, 1)
    | none, some n =>
      match rest.head?.bind chomping? with
      | some chomping => (⟨chomping, some n⟩, 2)
      | none => (⟨.clip, some n⟩, 1)
    | none, none => ({}, 0)

/-- The place behind the first line of a block scalar, where only a comment may still stand. -/
def skipHeaderEnd (cursor : Cursor) : Option Cursor :=
  let behind := cursor.dropWhile isBlank
  let behind := if behind.startsWith "#" then behind.dropWhile (!isBreak ·) else behind
  match behind.rest with
  | [] => some behind
  | c :: _ => if isBreak c then some behind.next else none

/-- Empty lines inside a block scalar: their line breaks, the widest
indentation that was met, and the place of the first character behind it. -/
structure EmptyLines where
  breaks : List Char
  widest : Nat
  stop : Cursor

/-- The empty lines from a place on; nothing if a tab stands in the indentation. -/
def emptyLines (indent : Option Nat) :
    (fuel : Nat) → (breaks : List Char) → (widest : Nat) → Cursor → Option EmptyLines
  | 0, _, _, _ => none
  | fuel + 1, breaks, widest, cursor =>
    let spaces := (cursor.rest.takeWhile (· = ' ')).length
    let spaces :=
      match indent with
      | some n => min spaces (n - cursor.column)
      | none => spaces
    let behind := cursor.advance spaces
    let widest := max widest behind.column
    let within :=
      match indent with
      | some n => decide (behind.column < n)
      | none => true
    match behind.rest with
    | [] => some ⟨breaks, widest, behind⟩
    | c :: _ =>
      if within && c = '\t' then none
      else if isBreak c then emptyLines indent fuel (breaks ++ [c]) widest behind.next
      else some ⟨breaks, widest, behind⟩

/-- The lines of a block scalar that were read so far. -/
structure BlockLines where
  text : List Char := []
  /-- The line break behind the last line. -/
  last : List Char := []
  /-- The line breaks of the empty lines behind it. -/
  empty : List Char
  lastIsBlank : Bool := false

/-- The text with the line breaks before another line; of a folded scalar they
are folded between lines that do not begin with a blank. -/
def joined (folded : Bool) (lines : BlockLines) (startsBlank : Bool) : List Char :=
  if folded && lines.last = ['\n'] && !lines.lastIsBlank && !startsBlank then
    lines.text ++ foldBreaks ('\n' :: lines.empty)
  else lines.text ++ lines.last ++ lines.empty

/-- The lines of a block scalar with an indentation. -/
def readLines (folded : Bool) (indent : Nat) :
    (fuel : Nat) → BlockLines → Cursor → Option (BlockLines × Cursor)
  | 0, _, _ => none
  | fuel + 1, lines, cursor =>
    if cursor.column = indent && !cursor.rest.isEmpty then do
      let startsBlank := cursor.rest.head?.any isBlank
      let (line, stop) := cursor.takeWhile (!isBreak ·)
      let text := joined folded lines startsBlank ++ line
      let last := stop.rest.take 1
      let next ← emptyLines (some indent) (stop.rest.length + 1) [] 0 stop.next
      readLines folded indent fuel ⟨text, last, next.breaks, startsBlank⟩ next.stop
    else some (lines, cursor)

/-- The text of a block scalar. -/
def chomped (chomping : Chomping) (lines : BlockLines) : List Char :=
  match chomping with
  | .strip => lines.text
  | .clip => lines.text ++ lines.last
  | .keep => lines.text ++ lines.last ++ lines.empty

/-- A block scalar behind its indicator, in a block whose columns begin at
`parent`; `-1` is the block around all others. -/
def readBlock (folded : Bool) (parent : Int) (cursor : Cursor) : Option (List Char × Cursor) := do
  let (header, count) := blockHeader cursor.rest
  let start ← skipHeaderEnd (cursor.advance count)
  let fixed := header.increment.map fun n => (max parent 0).toNat + n
  let first ← emptyLines fixed (start.rest.length + 1) [] 0 start
  let indent := fixed.getD (max first.widest (max (parent + 1) 1).toNat)
  let (lines, stop) ← readLines folded indent (start.rest.length + 1)
    (BlockLines.mk [] [] first.breaks false) first.stop
  return (chomped header.chomping lines, stop)

end Keymap.Yaml
