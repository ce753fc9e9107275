import Keymap.Yaml.Scalar
import Keymap.Yaml.Tag

/-!
# YAML tokens

The tokens of a text show its layout: where a block begins and ends, and which
words are keys. A block begins at a column to the right of the block around it
and ends before a line that begins further left. Whether a word is a key is
known only at the colon behind it, which has to stand on the same line and not
too far away; the token of the key is then put in front of the word.
-/

namespace Keymap.Yaml

/-- The tokens of a text. -/
inductive Token where
  | directive (directive : Directive)
  | documentStart
  | documentEnd
  | blockSequence
  | blockMapping
  | blockEnd
  | flowSequence
  | flowSequenceEnd
  | flowMapping
  | flowMappingEnd
  | item
  | comma
  | key
  | value
  | anchor (name : String)
  | alias (name : String)
  | tag (tag : TagText)
  | scalar (text : String) (style : Style)
  deriving DecidableEq

/-- A place where a key may have begun. -/
structure KeyStart where
  /-- The number of tokens in front of it. -/
  position : Nat
  place : Cursor
  /-- Nothing but a key can stand there. -/
  isRequired : Bool

/-- What is known about a text that is being read. -/
structure Layout where
  cursor : Cursor
  tokens : Array Token := #[]
  /-- The columns of the open blocks, the innermost first. -/
  columns : List Nat := []
  /-- For every open bracket, and around all of them, where a key may have begun. -/
  keys : List (Option KeyStart) := [none]
  /-- A key or a block may begin here. -/
  allowsKey : Bool := true

/-- A step of reading; nothing if the text is malformed. -/
abbrev Reading := StateT Layout Option

namespace Reading

/-- The text is malformed. -/
def fail {α : Type} : Reading α := StateT.lift none

/-- The column of the innermost block, `-1` outside of all blocks. -/
def column (layout : Layout) : Int :=
  match layout.columns with
  | [] => -1
  | c :: _ => c

/-- The place is inside brackets. -/
def inFlow (layout : Layout) : Bool := !layout.keys.tail.isEmpty

/-- Move to a place. -/
def moveTo (cursor : Cursor) : Reading Unit := modify fun l => { l with cursor := cursor }

/-- Say whether a key may begin at the place. -/
def allowKey (allowed : Bool) : Reading Unit := modify fun l => { l with allowsKey := allowed }

/-- Add a token. -/
def emit (token : Token) : Reading Unit := modify fun l => { l with tokens := l.tokens.push token }

/-- Put a token in front of those from a position on. -/
def insert (position : Nat) (token : Token) : Reading Unit :=
  modify fun l => { l with tokens := l.tokens.insertIdxIfInBounds position token }

/-- The place where a key may have begun inside the innermost brackets. -/
def keyStart (layout : Layout) : Option KeyStart := layout.keys.head?.join

/-- No key has begun here inside the innermost brackets. -/
def forgetKey : Reading Unit := modify fun l => { l with keys := none :: l.keys.drop 1 }

/-- Give up the key that may have begun; it must not be required. -/
def dropKey : Reading Unit := do
  if (keyStart (← get)).any (·.isRequired) then fail else forgetKey

/-- A key may begin here, if one is allowed. -/
def markKey : Reading Unit := do
  let layout ← get
  if layout.allowsKey then
    dropKey
    let required := !inFlow layout && decide (column layout = layout.cursor.column)
    let start : KeyStart := ⟨layout.tokens.size, layout.cursor, required⟩
    modify fun l => { l with keys := some start :: l.keys.drop 1 }

/-- The greatest number of bytes between the beginning of a key and its colon. -/
def maxKeyLength : Nat := 1024

/-- The key can no longer have its colon. -/
def isStale (cursor : Cursor) (start : KeyStart) : Bool :=
  decide (start.place.line < cursor.line) ||
    decide (start.place.index + maxKeyLength < cursor.index)

/-- Give up the keys that can no longer have their colons. -/
def dropStaleKeys : Reading Unit := do
  let layout ← get
  let stale (start : KeyStart) := isStale layout.cursor start
  if layout.keys.any fun key => key.any fun start => stale start && start.isRequired then fail
  else if layout.keys.any (·.any stale) then
    modify fun l => { l with keys := l.keys.map (·.filter fun start => !stale start) }

/-- Begin a block at a column, unless the innermost block begins there. -/
def openBlock (column : Nat) (position : Option Nat) (token : Token) : Reading Unit := do
  let layout ← get
  if !inFlow layout && decide (Reading.column layout < column) then
    modify fun l => { l with columns := column :: l.columns }
    insert (position.getD layout.tokens.size) token

/-- End the blocks to the right of a column. -/
def closeBlocks (column : Int) : Reading Unit := do
  let layout ← get
  if !inFlow layout then
    let closed := layout.columns.takeWhile fun (c : Nat) => decide (column < (c : Int))
    modify fun l =>
      { l with
        columns := l.columns.drop closed.length
        tokens := l.tokens ++ (closed.map fun _ => Token.blockEnd).toArray }

/-- The place behind the mark of the byte order, if it stands at the beginning of a line. -/
def skipByteOrderMark (cursor : Cursor) : Cursor :=
  if cursor.column = 0 && cursor.rest.head? = some byteOrderMark then cursor.next else cursor

/-- Move to the next token, over blanks, comments and line breaks. A tab is no
blank where a block may begin. -/
def skipGaps : (fuel : Nat) → Reading Unit
  | 0 => fail
  | fuel + 1 => do
    let layout ← get
    let tabs := inFlow layout || !layout.allowsKey
    let line := skipByteOrderMark layout.cursor
    let start := line.dropWhile fun c => c = ' ' || (tabs && c = '\t')
    let stop := if start.startsWith "#" then start.dropWhile (!isBreak ·) else start
    if stop.rest.head?.any isBreak then
      moveTo stop.next
      if !inFlow layout then allowKey true
      skipGaps fuel
    else moveTo stop

/-- The mark of a document. -/
def readMark (token : Token) : Reading Unit := do
  closeBlocks (-1)
  dropKey
  allowKey false
  moveTo ((← get).cursor.advance 3)
  emit token

/-- A line with a directive. -/
def readDirective : Reading Unit := do
  closeBlocks (-1)
  dropKey
  allowKey false
  let (directive, stop) ← StateT.lift (Directive.read (← get).cursor.next)
  moveTo stop
  emit (.directive directive)

/-- An opening bracket. -/
def readOpening (token : Token) : Reading Unit := do
  markKey
  modify fun l => { l with keys := none :: l.keys }
  allowKey true
  moveTo (← get).cursor.next
  emit token

/-- A closing bracket. -/
def readClosing (token : Token) : Reading Unit := do
  dropKey
  modify fun l => { l with keys := if inFlow l then l.keys.drop 1 else l.keys }
  allowKey false
  moveTo (← get).cursor.next
  emit token

/-- A comma inside brackets. -/
def readComma : Reading Unit := do
  dropKey
  allowKey true
  moveTo (← get).cursor.next
  emit .comma

/-- The dash of an item. -/
def readItem : Reading Unit := do
  let layout ← get
  if !inFlow layout then
    if layout.allowsKey then openBlock layout.cursor.column none .blockSequence else fail
  dropKey
  allowKey true
  moveTo (← get).cursor.next
  emit .item

/-- The mark of a key that is not a word. -/
def readKey : Reading Unit := do
  let layout ← get
  if !inFlow layout then
    if layout.allowsKey then openBlock layout.cursor.column none .blockMapping else fail
  dropKey
  allowKey (!inFlow layout)
  moveTo (← get).cursor.next
  emit .key

/-- The colon of a value. -/
def readValue : Reading Unit := do
  let layout ← get
  match keyStart layout with
  | some start =>
    insert start.position .key
    openBlock start.place.column (some start.position) .blockMapping
    forgetKey
    allowKey false
  | none =>
    if !inFlow layout then
      if layout.allowsKey then openBlock layout.cursor.column none .blockMapping else fail
    allowKey (!inFlow layout)
  moveTo (← get).cursor.next
  emit .value

/-- The name of an anchor. -/
def readName : Reading String := do
  markKey
  allowKey false
  let (name, stop) := (← get).cursor.next.takeWhile isNameChar
  let ends := endsWord stop.rest ||
    stop.rest.head?.any fun c => decide (c ∈ ['?', ':', ',', ']', '\x7d', '%', '@', '`'])
  if name.isEmpty || !ends then fail
  else
    moveTo stop
    return String.ofList name

/-- A tag, with a blank or the end of the line behind it, or inside brackets a comma. -/
def readTag : Reading Unit := do
  markKey
  allowKey false
  let layout ← get
  let (tag, stop) ← StateT.lift (readTagAt layout.cursor)
  if endsWord stop.rest || (inFlow layout && stop.startsWith ",") then
    moveTo stop
    emit (.tag tag)
  else fail

/-- A scalar in quotes. -/
def readQuoted (read : (fuel : Nat) → (text : List Char) → Cursor → Option (List Char × Cursor)) :
    Reading Unit := do
  markKey
  allowKey false
  let start := (← get).cursor.next
  let (text, stop) ← StateT.lift (read (start.rest.length + 1) [] start)
  moveTo stop
  emit (.scalar (String.ofList text) .enclosed)

/-- A block scalar. -/
def readBlockScalar (folded : Bool) : Reading Unit := do
  dropKey
  allowKey true
  let layout ← get
  let (text, stop) ← StateT.lift (readBlock folded (column layout) layout.cursor.next)
  moveTo stop
  emit (.scalar (String.ofList text) (if folded then .enclosed else .literal))

/-- A plain scalar. -/
def readPlainScalar : Reading Unit := do
  markKey
  allowKey false
  let layout ← get
  let indent := (column layout + 1).toNat
  let scalar ← StateT.lift
    (readPlain (inFlow layout) indent (layout.cursor.rest.length + 1) [] layout.cursor)
  moveTo scalar.stop
  emit (.scalar (String.ofList scalar.text) .plain)
  if scalar.brokeLine then allowKey true

/-- Characters that do not begin a plain scalar. -/
def indicators : List Char :=
  ['-', '?', ':', ',', '[', ']', '\x7b', '\x7d', '#', '&', '*', '!', '|', '>', '\'', '"', '%',
   '@', '`']

/-- A plain scalar begins with a character and what follows it. -/
def beginsPlain (inFlow : Bool) (c : Char) (rest : List Char) : Bool :=
  if c = '-' then !rest.head?.any isBlank
  else if c = '?' || c = ':' then !inFlow && !endsWord rest
  else decide (c ∉ indicators) && !isGap c

/-- The token that begins with a character and what follows it. -/
def readToken (c : Char) (rest : List Char) : Reading Unit := do
  let layout ← get
  let flow := inFlow layout
  if layout.cursor.column = 0 && c = '%' then readDirective
  else if layout.cursor.atMark "---" then readMark .documentStart
  else if layout.cursor.atMark "..." then readMark .documentEnd
  else if c = '[' then readOpening .flowSequence
  else if c = '\x7b' then readOpening .flowMapping
  else if c = ']' then readClosing .flowSequenceEnd
  else if c = '\x7d' then readClosing .flowMappingEnd
  else if c = ',' then readComma
  else if c = '-' && endsWord rest then readItem
  else if c = '?' && (flow || endsWord rest) then readKey
  else if c = ':' && (flow || endsWord rest) then readValue
  else if c = '*' then do emit (.alias (← readName))
  else if c = '&' then do emit (.anchor (← readName))
  else if c = '!' then readTag
  else if c = '|' && !flow then readBlockScalar false
  else if c = '>' && !flow then readBlockScalar true
  else if c = '\'' then readQuoted readSingle
  else if c = '"' then readQuoted readDouble
  else if beginsPlain flow c rest then readPlainScalar
  else fail

/-- All tokens from a place on. The fuel is more than the characters that are left, and
every token takes one, so that it is enough for the gaps too. -/
def readTokens : (fuel : Nat) → Reading Unit
  | 0 => fail
  | fuel + 1 => do
    skipGaps (fuel + 1)
    dropStaleKeys
    closeBlocks (← get).cursor.column
    match (← get).cursor.rest with
    | [] => do
      closeBlocks (-1)
      dropKey
    | c :: rest => do
      readToken c rest
      readTokens fuel

end Reading

/-- The tokens of a text; nothing if it has none. -/
def tokens? (text : String) : Option (List Token) :=
  let cs := text.toList
  if cs.all isAllowed then do
    let cs := unifyBreaks cs
    let ((), layout) ← Reading.readTokens (cs.length + 1) { cursor := ⟨cs, 0, 0, 0⟩ }
    return layout.tokens.toList
  else none

end Keymap.Yaml
