import Keymap.Document.Json
import Keymap.Text.Numerals

/-!
# Unquoted scalars

What the characters of an unquoted scalar may stand for. Integers are written
in base ten, or behind `0x`, `0o` and `0b` in base sixteen, eight and two.
Several digits with a zero in front are a text, except where a fraction is
expected. A decimal becomes the nearest fraction.
-/

namespace Keymap.Plain

open Text (naturalOf naturalInBase?)

/-- The text is a word for nothing. -/
def isNullWord (text : String) : Bool := decide (text ∈ ["~", "null", "Null", "NULL"])

/-- The text stands for nothing. -/
def isNull (text : String) : Bool := text = "" || isNullWord text

/-- The truth value of a text. -/
def bool? (text : String) : Option Bool :=
  if text ∈ ["true", "True", "TRUE"] then some true
  else if text ∈ ["false", "False", "FALSE"] then some false
  else none

/-- The text without one plus in front. -/
def withoutPlus : List Char → List Char
  | '+' :: rest => rest
  | cs => cs

/-- The text without one sign in front. -/
def withoutSign : List Char → List Char
  | '+' :: rest => rest
  | '-' :: rest => rest
  | cs => cs

/-- Digits behind a zero. -/
def isPadded (cs : List Char) : Bool :=
  match withoutSign cs with
  | '0' :: d :: rest => (d :: rest).all Char.isDigit
  | _ => false

/-- The natural number that characters without a sign write. -/
def unsigned? : List Char → Option Nat
  | '0' :: 'x' :: digits => naturalInBase? 16 digits
  | '0' :: 'o' :: digits => naturalInBase? 8 digits
  | '0' :: 'b' :: digits => naturalInBase? 2 digits
  | digits => if isPadded digits then none else naturalInBase? 10 digits

/-- The natural number that a text writes. -/
def natural? (text : String) : Option Nat := unsigned? (withoutPlus text.toList)

/-- The integer that a text writes. -/
def integer? (text : String) : Option Int :=
  match text.toList with
  | '-' :: cs => (unsigned? cs).map fun n => -(n : Int)
  | cs => (unsigned? (withoutPlus cs)).map fun n => n

/-- Whole digits, digits behind the point, and what follows them; there is a digit. -/
def splitDecimal? (cs : List Char) : Option (List Char × List Char × List Char) :=
  let whole := cs.takeWhile Char.isDigit
  let (behind, rest) :=
    match cs.dropWhile Char.isDigit with
    | '.' :: rest => (rest.takeWhile Char.isDigit, rest.dropWhile Char.isDigit)
    | rest => ([], rest)
  if whole.isEmpty ∧ behind.isEmpty then none else some (whole, behind, rest)

/-- The power of ten that an exponent writes, zero if there is none. -/
def power? : List Char → Option Int
  | [] => some 0
  | e :: cs =>
    if e = 'e' ∨ e = 'E' then
      match cs with
      | '-' :: digits => (naturalInBase? 10 digits).map fun n => -(n : Int)
      | cs => (naturalInBase? 10 (withoutPlus cs)).map fun n => n
    else none

/-- Digits times a power of ten, rounded to the nearest number; none if it is too large. -/
def scaled? (negative : Bool) (digits : List Char) (power : Int) : Option Binary64 :=
  let n := naturalOf digits
  let top : Int := (Nat.toDigits 10 n).length + power
  if n = 0 ∨ top < -400 then some (.ofQuotient negative 0 1)
  else if 400 < top then none
  else
    let x := Binary64.ofQuotient negative (n * 10 ^ power.toNat) (10 ^ (-power).toNat)
    if x.isFinite then some x else none

/-- The finite number that characters write, without a sign of their own. -/
def decimal? (negative : Bool) (cs : List Char) : Option Binary64 := do
  let (whole, behind, rest) ← splitDecimal? cs
  let power ← power? rest
  scaled? negative (whole ++ behind) (power - behind.length)

/-- The fraction that a text writes. -/
def fraction? (text : String) : Option Binary64 :=
  if text ∈ [".inf", ".Inf", ".INF", "+.inf", "+.Inf", "+.INF"] then some (.infinity false)
  else if text ∈ ["-.inf", "-.Inf", "-.INF"] then some (.infinity true)
  else if text ∈ [".nan", ".NaN", ".NAN"] then some .nan
  else
    match text.toList with
    | '-' :: cs => decimal? true cs
    | cs => decimal? false (withoutPlus cs)

/-- An integer that fits 64 bits, with or without a sign. -/
def word? (n : Int) : Option Scalar :=
  if -2 ^ 63 ≤ n ∧ n < 2 ^ 64 then some (.number (.integer n)) else none

/-- What a text stands for by itself: an integer if it writes one, which then
has to fit 64 bits unless it is too long for any word, or a fraction, or the
text itself. -/
def value? (text : String) : Option Scalar :=
  let other : Scalar :=
    if isPadded text.toList then .string text
    else
      match fraction? text with
      | some x => .number (.fraction x)
      | none => .string text
  if isNull text then some .null
  else
    match bool? text, integer? text with
    | some b, _ => some (.bool b)
    | none, some n =>
      if -2 ^ 127 ≤ n ∧ n < 2 ^ 128 then word? n else some other
    | none, none => some other

example : value? "0x1F" = some (.number (.integer 31)) := by decide +kernel
example : value? "-0b11" = some (.number (.integer (-3))) := by decide +kernel
example : value? "007" = some (.string "007") := by decide +kernel
example : value? "1e3" = some (.number (.fraction (.ofNat 1000))) := by decide +kernel
example : value? "a b" = some (.string "a b") := by decide +kernel
example : fraction? "010" = some (.ofNat 10) := by decide +kernel

end Keymap.Plain
