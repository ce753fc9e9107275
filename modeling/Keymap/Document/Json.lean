import Keymap.Number.Decimal

/-!
# JSON values and their text

The leaves of a configuration document, whatever language it is written in, are
values without parts. A number among them keeps its integer value when it is
written as an integer that fits a 64-bit word; every other number is a binary64
number.

A JSON value keeps the members of an object in the order in which they are
written. The text has one member or item a line, indented by two blanks for
every level; an empty array or object stays on its line. Characters outside
ASCII are written as they are.
-/

namespace Keymap

/-- A number as a document gives it. -/
inductive Number where
  | integer (value : Int)
  | fraction (value : Binary64)
  deriving DecidableEq

/-- A value without parts. -/
inductive Scalar where
  | null
  | bool (value : Bool)
  | number (value : Number)
  | string (value : String)
  deriving DecidableEq

/-- Numbers in a JSON text: the exponent form below `10 ^ -5` and from `10 ^ 16`
on, a positive exponent with its sign, ties to the even decimal. -/
def NumberLayout.json : NumberLayout := ⟨-5, true, false⟩

/-- The JSON text of a number; a number that is not finite has none and is written as `null`. -/
def Number.json : Number → String
  | .integer n => toString n
  | .fraction x => if x.isFinite then NumberLayout.json.writeFinite x else "null"

example : (Number.fraction ⟨0x8000000000000000⟩).json = "-0.0" := by decide +kernel
example : (Number.fraction (.ofQuotient false 3 200000)).json = "0.000015" := by decide +kernel
example : (Number.fraction (.ofQuotient false 3 2000000)).json = "1.5e-6" := by decide +kernel
example : (Number.fraction (.ofNat (10 ^ 16))).json = "1e+16" := by decide +kernel

/-- A JSON value. -/
inductive Json where
  | scalar (value : Scalar)
  | array (items : List Json)
  | object (members : List (String × Json))

namespace Json

/-- The value without content. -/
abbrev null : Json := .scalar .null

/-- A truth value. -/
abbrev bool (b : Bool) : Json := .scalar (.bool b)

/-- An integer. -/
abbrev int (n : Int) : Json := .scalar (.number (.integer n))

/-- A natural number. -/
abbrev nat (n : Nat) : Json := int n

/-- A text. -/
abbrev string (s : String) : Json := .scalar (.string s)

/-- The hexadecimal digit of a number below sixteen, a letter in lower case. -/
def hexDigit (n : Nat) : Char := Nat.digitChar n

/-- A character inside a quoted text. -/
def escape (c : Char) : List Char :=
  if c = '"' then ['\\', '"']
  else if c = '\\' then ['\\', '\\']
  else if c = '\x08' then ['\\', 'b']
  else if c = '\x0c' then ['\\', 'f']
  else if c = '\n' then ['\\', 'n']
  else if c = '\r' then ['\\', 'r']
  else if c = '\t' then ['\\', 't']
  else if c.toNat < 32 then
    ['\\', 'u', '0', '0', hexDigit (c.toNat / 16), hexDigit (c.toNat % 16)]
  else [c]

/-- A text in quotes. -/
def quote (s : String) : String :=
  String.ofList ('"' :: s.toList.flatMap escape ++ ['"'])

/-- The text of a value without parts. -/
def scalarText : Scalar → String
  | .null => "null"
  | .bool b => if b then "true" else "false"
  | .number n => n.json
  | .string s => quote s

/-- A line break and the indentation of a level. -/
def newLine (level : Nat) : String := String.ofList ('\n' :: List.replicate (2 * level) ' ')

/-- Lines between an opening and a closing bracket. -/
def enclose (opening closing : String) (level : Nat) (lines : List String) : String :=
  if lines.isEmpty then opening ++ closing
  else
    opening ++ newLine (level + 1) ++ String.intercalate ("," ++ newLine (level + 1)) lines ++
      newLine level ++ closing

mutual

/-- The text of a value whose first line stands at a level. -/
def textAt (level : Nat) : Json → String
  | .scalar value => scalarText value
  | .array items => enclose "[" "]" level (itemTexts (level + 1) items)
  | .object members => enclose "\x7b" "\x7d" level (memberTexts (level + 1) members)

/-- The texts of the items of an array. -/
def itemTexts (level : Nat) : List Json → List String
  | [] => []
  | item :: rest => textAt level item :: itemTexts level rest

/-- The texts of the members of an object. -/
def memberTexts (level : Nat) : List (String × Json) → List String
  | [] => []
  | (key, value) :: rest =>
    (quote key ++ ": " ++ textAt level value) :: memberTexts level rest

end

/-- The text of a value. -/
def text (value : Json) : String := value.textAt 0

/-- Insert or replace a member, keeping the keys in ascending order. -/
def insertMember (key : String) (value : Json) :
    List (String × Json) → List (String × Json)
  | [] => [(key, value)]
  | (k, v) :: rest =>
    if key < k then (key, value) :: (k, v) :: rest
    else if key = k then (key, value) :: rest
    else (k, v) :: insertMember key value rest

/-- An object whose keys ascend; of members with one key the last is kept. -/
def sortedObject (members : List (String × Json)) : Json :=
  .object (members.foldl (fun sorted m => insertMember m.1 m.2 sorted) [])

end Json

end Keymap
