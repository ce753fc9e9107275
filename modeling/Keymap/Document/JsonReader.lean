import Keymap.Document.Node
import Keymap.Text.Numerals

/-!
# Reading JSON texts

A text is read from the left into a tree; where it stops being JSON the tree
ends in a broken node. Containers may be nested 127 deep. The digits of a
number with a point or an exponent, or of one that is too long, are collected
while they stay below `2 ^ 64`; the digits behind are dropped, and the rest is
scaled by one power of ten with a rounding of its own.
-/

namespace Keymap

namespace JsonReader

open Text (digitValue naturalOf hexValue)

/-- Blanks between the parts of a text. -/
def isBlank (c : Char) : Bool := c = ' ' || c = '\n' || c = '\t' || c = '\r'

/-- The text without the blanks in front. -/
def skipBlanks : List Char → List Char
  | [] => []
  | c :: rest => if isBlank c then skipBlanks rest else c :: rest

/-- The digits that keep a significand below `2 ^ 64`, and the digits dropped. -/
def collect (significand : Nat) : List Char → Nat × List Char
  | [] => (significand, [])
  | d :: rest =>
    let next := 10 * significand + digitValue d
    if next < 2 ^ 64 then collect next rest else (significand, d :: rest)

/-- A significand times a power of ten; none if it is too large for a number. -/
def scale (significand : Nat) (power : Int) : Option Binary64 :=
  let x := Binary64.ofNat significand
  let tenTo (n : Int) : Binary64 := Binary64.ofNat (10 ^ n.toNat)
  if significand = 0 then some .zero
  else if 308 < power then none
  else if 0 ≤ power then
    let y := x.mul (tenTo power)
    if y.isFinite then some y else none
  else if -308 ≤ power then some (x.div (tenTo (-power)))
  else if -616 ≤ power then some ((x.div (tenTo 308)).div (tenTo (-power - 308)))
  else some .zero

/-- The number that whole digits, digits behind the point and an exponent write. -/
def fractionOf (whole behind : List Char) (power : Int) : Option Binary64 :=
  let (first, droppedWhole) := collect 0 whole
  let (significand, droppedBehind) := collect first behind
  let kept : Int := behind.length - droppedBehind.length
  scale significand (droppedWhole.length - kept + power)

/-- The number that whole digits write: an integer if it fits a 64-bit word and is not `-0`. -/
def wholeNumber (negative : Bool) (digits : List Char) : Option Number :=
  let n := naturalOf digits
  if n < 2 ^ 64 then
    if negative then
      if n = 0 ∨ 2 ^ 63 < n then some (.fraction (Binary64.ofNat n).neg)
      else some (.integer (-n))
    else some (.integer n)
  else
    (fractionOf digits [] 0).map fun x => .fraction (if negative then x.neg else x)

/-- The exponent behind the letter `e`, with what follows it. -/
def readExponent (cs : List Char) : Option (Int × List Char) :=
  let (negative, cs) :=
    match cs with
    | '-' :: rest => (true, rest)
    | '+' :: rest => (false, rest)
    | _ => (false, cs)
  let digits := cs.takeWhile Char.isDigit
  if digits.isEmpty then none
  else
    let power : Int := naturalOf digits
    some (if negative then -power else power, cs.dropWhile Char.isDigit)

/-- The exponent if there is one, and zero without it. -/
def readPower (cs : List Char) : Option (Int × List Char) :=
  match cs with
  | 'e' :: rest => readExponent rest
  | 'E' :: rest => readExponent rest
  | _ => some (0, cs)

/-- A number without its sign, with what follows it. -/
def readUnsigned (negative : Bool) (cs : List Char) : Option (Number × List Char) :=
  let whole := cs.takeWhile Char.isDigit
  let rest := cs.dropWhile Char.isDigit
  let signed (x : Binary64) : Number := .fraction (if negative then x.neg else x)
  if whole.isEmpty ∨ (whole.head? = some '0' ∧ 1 < whole.length) then none
  else
    match rest with
    | '.' :: behind =>
      let digits := behind.takeWhile Char.isDigit
      if digits.isEmpty then none
      else do
        let (power, rest) ← readPower (behind.dropWhile Char.isDigit)
        let x ← fractionOf whole digits power
        return (signed x, rest)
    | 'e' :: _ | 'E' :: _ => do
      let (power, rest) ← readPower rest
      let x ← fractionOf whole [] power
      return (signed x, rest)
    | _ => (wholeNumber negative whole).map (·, rest)

/-- A number, with what follows it. -/
def readNumber (cs : List Char) : Option (Number × List Char) :=
  match cs with
  | '-' :: rest => readUnsigned true rest
  | _ => readUnsigned false cs

/-- The number that four hexadecimal digits write. -/
def hexNumber (a b c d : Char) : Option Nat := do
  return (((← hexValue a) * 16 + (← hexValue b)) * 16 + (← hexValue c)) * 16 + (← hexValue d)

/-- The character behind a backslash that stands for itself or by a letter. -/
def unescape (c : Char) : Option Char :=
  match c with
  | '"' => some '"'
  | '\\' => some '\\'
  | '/' => some '/'
  | 'b' => some '\x08'
  | 'f' => some '\x0c'
  | 'n' => some '\n'
  | 'r' => some '\r'
  | 't' => some '\t'
  | _ => none

/-- The character of two surrogates. -/
def pairedChar (high low : Nat) : Option Char :=
  if 0xD800 ≤ high ∧ high < 0xDC00 ∧ 0xDC00 ≤ low ∧ low < 0xE000 then
    some (Char.ofNat (0x10000 + (high - 0xD800) * 0x400 + (low - 0xDC00)))
  else none

/-- The contents of a text behind its opening quote, with what follows the
closing one. A surrogate stands only in a pair, and no control character stands plainly. -/
def readString (read : List Char) : List Char → Option (String × List Char)
  | [] => none
  | '"' :: rest => some (String.ofList read.reverse, rest)
  | '\\' :: 'u' :: a :: b :: c :: d :: '\\' :: 'u' :: e :: f :: g :: h :: rest =>
    match hexNumber a b c d with
    | none => none
    | some n =>
      if 0xD800 ≤ n ∧ n < 0xE000 then
        match (hexNumber e f g h).bind (pairedChar n) with
        | none => none
        | some x => readString (x :: read) rest
      else readString (Char.ofNat n :: read) ('\\' :: 'u' :: e :: f :: g :: h :: rest)
  | '\\' :: 'u' :: a :: b :: c :: d :: rest =>
    match hexNumber a b c d with
    | none => none
    | some n =>
      if 0xD800 ≤ n ∧ n < 0xE000 then none else readString (Char.ofNat n :: read) rest
  | '\\' :: c :: rest =>
    match unescape c with
    | none => none
    | some x => readString (x :: read) rest
  | c :: rest => if c = '\\' ∨ c.toNat < 32 then none else readString (c :: read) rest

/-- What is read, and the rest of the text unless it is broken. -/
abbrev Step (α : Type) := α × Option (List Char)

/-- A value that ends the text, because it cannot be read. -/
def brokenStep : Step Node := (.broken, none)

/-- A value written as a word. -/
def readWord (word : List Char) (value : Scalar) (cs : List Char) : Step Node :=
  if word.isPrefixOf cs then (.scalar value, some (cs.drop word.length)) else brokenStep

/-- A value without parts. -/
def readScalar (cs : List Char) : Step Node :=
  match cs with
  | 'n' :: _ => readWord "null".toList .null cs
  | 't' :: _ => readWord "true".toList (.bool true) cs
  | 'f' :: _ => readWord "false".toList (.bool false) cs
  | '"' :: rest =>
    match readString [] rest with
    | some (s, rest) => (.scalar (.string s), some rest)
    | none => brokenStep
  | _ =>
    match readNumber cs with
    | some (n, rest) => (.scalar (.number n), some rest)
    | none => brokenStep

mutual

/-- A value that may still open `depth` containers within one another. -/
def readValue : (fuel depth : Nat) → List Char → Step Node
  | 0, _, _ => brokenStep
  | fuel + 1, depth, cs =>
    match skipBlanks cs, depth with
    | '[' :: rest, depth + 1 =>
      let (items, after) := readItems fuel depth rest
      (.sequence items, after)
    | '\x7b' :: rest, depth + 1 =>
      let (entries, after) := readMembers fuel depth rest
      (.mapping entries, after)
    | '[' :: _, 0 => brokenStep
    | '\x7b' :: _, 0 => brokenStep
    | cs, _ => readScalar cs

/-- The items behind an opening bracket. -/
def readItems : (fuel depth : Nat) → List Char → Step (List Node)
  | 0, _, _ => ([.broken], none)
  | fuel + 1, depth, cs =>
    match skipBlanks cs with
    | ']' :: rest => ([], some rest)
    | cs => readItem fuel depth cs

/-- One item with those behind it. -/
def readItem : (fuel depth : Nat) → List Char → Step (List Node)
  | 0, _, _ => ([.broken], none)
  | fuel + 1, depth, cs =>
    match readValue fuel depth cs with
    | (item, none) => ([item], none)
    | (item, some rest) =>
      match skipBlanks rest with
      | ']' :: rest => ([item], some rest)
      | ',' :: rest =>
        let (items, after) := readItem fuel depth rest
        (item :: items, after)
      | _ => ([item, .broken], none)

/-- The members behind an opening brace. -/
def readMembers : (fuel depth : Nat) → List Char → Step (List (Node × Node))
  | 0, _, _ => ([(.broken, .broken)], none)
  | fuel + 1, depth, cs =>
    match skipBlanks cs with
    | '\x7d' :: rest => ([], some rest)
    | cs => readMember fuel depth cs

/-- One member with those behind it. -/
def readMember : (fuel depth : Nat) → List Char → Step (List (Node × Node))
  | 0, _, _ => ([(.broken, .broken)], none)
  | fuel + 1, depth, cs =>
    match skipBlanks cs with
    | '"' :: rest =>
      match readString [] rest with
      | none => ([(.broken, .broken)], none)
      | some (name, rest) =>
        let key : Node := .scalar (.string name)
        match skipBlanks rest with
        | ':' :: rest =>
          match readValue fuel depth rest with
          | (value, none) => ([(key, value)], none)
          | (value, some rest) =>
            match skipBlanks rest with
            | '\x7d' :: rest => ([(key, value)], some rest)
            | ',' :: rest =>
              let (entries, after) := readMember fuel depth rest
              ((key, value) :: entries, after)
            | _ => ([(key, value), (.broken, .broken)], none)
        | _ => ([(key, .broken)], none)
    | _ => ([(.broken, .broken)], none)

end

/-- The containers that may be nested within one another. -/
def deepest : Nat := 127

end JsonReader

/-- The document that a JSON text writes. Every step of the reader takes at most
three turns before it uses up a character. -/
def Document.ofJsonText (text : String) : Document :=
  let cs := text.toList
  match JsonReader.readValue (3 * cs.length + 3) JsonReader.deepest cs with
  | (root, none) => ⟨root, true⟩
  | (root, some rest) => ⟨root, (JsonReader.skipBlanks rest).isEmpty⟩

end Keymap
