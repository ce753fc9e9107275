/-!
# Places in a YAML text

Whether a YAML text is well formed depends on lines and columns, so a reader of
it moves a cursor. The line breaks of a text are made uniform before it is read;
only the two separators of Unicode stay what they are.
-/

namespace Keymap.Yaml

/-- A character that ends a line. -/
def isBreak (c : Char) : Bool := c = '\n' || c = '\u2028' || c = '\u2029'

/-- A character between words. -/
def isBlank (c : Char) : Bool := c = ' ' || c = '\t'

/-- A character that no word holds. -/
def isGap (c : Char) : Bool := isBlank c || isBreak c

/-- The text with one kind of ordinary line break. -/
def unifyBreaks : List Char → List Char
  | [] => []
  | '\r' :: '\n' :: rest => '\n' :: unifyBreaks rest
  | '\r' :: rest => '\n' :: unifyBreaks rest
  | '\u0085' :: rest => '\n' :: unifyBreaks rest
  | c :: rest => c :: unifyBreaks rest

/-- A character that may stand in a text. -/
def isAllowed (c : Char) : Bool :=
  let n := c.toNat
  c = '\t' || c = '\n' || c = '\r' || decide (0x20 ≤ n ∧ n ≤ 0x7E) || c = '\u0085' ||
    decide (0xA0 ≤ n ∧ n ≤ 0xFFFD) || decide (0x10000 ≤ n)

/-- The mark of the byte order, which may stand at the beginning of a line. -/
def byteOrderMark : Char := '\ufeff'

/-- The end of the text or a character between words comes next. -/
def endsWord : List Char → Bool
  | [] => true
  | c :: _ => isGap c

/-- What is left of a text and the place where it begins: columns count
characters, and the index counts the bytes that encode them. -/
structure Cursor where
  rest : List Char
  line : Nat := 0
  column : Nat := 0
  index : Nat := 0

namespace Cursor

/-- Move over one character. -/
def next (cursor : Cursor) : Cursor :=
  match cursor.rest with
  | [] => cursor
  | c :: rest =>
    if isBreak c then ⟨rest, cursor.line + 1, 0, cursor.index + c.utf8Size⟩
    else ⟨rest, cursor.line, cursor.column + 1, cursor.index + c.utf8Size⟩

/-- Move over some characters. -/
def advance (cursor : Cursor) : (count : Nat) → Cursor
  | 0 => cursor
  | count + 1 => cursor.next.advance count

/-- The characters up to the first that does not satisfy a condition, and the place behind them. -/
def takeWhile (cursor : Cursor) (holds : Char → Bool) : List Char × Cursor :=
  let taken := cursor.rest.takeWhile holds
  (taken, cursor.advance taken.length)

/-- Move over the characters that satisfy a condition. -/
def dropWhile (cursor : Cursor) (holds : Char → Bool) : Cursor := (cursor.takeWhile holds).2

/-- The characters come next. -/
def startsWith (cursor : Cursor) (start : String) : Bool := start.toList.isPrefixOf cursor.rest

/-- A line with a mark of three characters begins here. -/
def atMark (cursor : Cursor) (mark : String) : Bool :=
  cursor.column = 0 && cursor.startsWith mark && endsWord (cursor.rest.drop 3)

/-- The beginning or the end of a document is marked here. -/
def atDocumentMark (cursor : Cursor) : Bool := cursor.atMark "---" || cursor.atMark "..."

end Cursor

end Keymap.Yaml
