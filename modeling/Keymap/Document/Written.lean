import Keymap.Document.Plain

/-!
# Scalars and the way they are written

In some languages it matters how a scalar is written: with or without quotes,
or as a block of lines, and with a tag in front that says what it is. Only an
unquoted scalar may stand for something else than its characters, and so may a
block that keeps its lines if its tag says so. Where no kind of value is
expected, a tag of a basic type decides, a tag of any other vocabulary makes
the scalar a text, and a tag of the document's own vocabulary chooses a variant,
which nothing but a choice can take.
-/

namespace Keymap

/-- What is said about a node in front of it. -/
inductive Tag where
  | boolean
  | integer
  | fraction
  | nothing
  /-- A choice, by its name. -/
  | variant (name : String)
  /-- A choice whose name is not a text. -/
  | garbled
  /-- Something of another vocabulary. -/
  | foreign
  deriving DecidableEq

/-- The name that the tag chooses. -/
def Tag.variant? : Tag → Option String
  | .variant name => some name
  | _ => none

/-- How the characters of a scalar are written. -/
inductive Style where
  /-- Without quotes. -/
  | plain
  /-- As a block that keeps its lines. -/
  | literal
  /-- In quotes, or as a block whose lines are joined. -/
  | enclosed
  deriving DecidableEq

/-- A scalar and the way it is written. -/
structure Written where
  text : String
  style : Style := .plain
  tag : Option Tag := none
  deriving DecidableEq

namespace Written

/-- There are no characters at all. -/
def isEmpty (scalar : Written) : Bool := scalar.style = .plain && scalar.text = ""

/-- The characters, if they may stand for a value of the kind that a tag names. -/
def bare? (scalar : Written) (kind : Tag) : Option String :=
  match scalar.style with
  | .plain => some scalar.text
  | .literal => if scalar.tag = some kind then some scalar.text else none
  | .enclosed => none

/-- The truth value that the scalar writes. -/
def bool? (scalar : Written) : Option Bool := (scalar.bare? .boolean).bind Plain.bool?

/-- The natural number that the scalar writes. -/
def natural? (scalar : Written) : Option Nat := (scalar.bare? .integer).bind Plain.natural?

/-- The integer that the scalar writes. -/
def integer? (scalar : Written) : Option Int := (scalar.bare? .integer).bind Plain.integer?

/-- The fraction that the scalar writes. -/
def fraction? (scalar : Written) : Option Binary64 :=
  (scalar.bare? .fraction).bind Plain.fraction?

/-- The scalar has nothing to say behind the name of a choice. -/
def isUnit (scalar : Written) : Bool := scalar.style = .plain && Plain.isNull scalar.text

/-- Whether the scalar stands in the place of a value that is absent; undecided
if its tag says so and its characters do not. -/
def isAbsent? (scalar : Written) : Option Bool :=
  match scalar.style, scalar.tag with
  | .plain, none => some (Plain.isNull scalar.text)
  | .plain, some .nothing => if Plain.isNullWord scalar.text then some true else none
  | _, _ => some false

/-- What the scalar stands for where no kind of value is expected. -/
def value? (scalar : Written) : Option Scalar :=
  match scalar.tag with
  | some .boolean => (Plain.bool? scalar.text).map .bool
  | some .integer => (Plain.integer? scalar.text).bind Plain.word?
  | some .fraction => (Plain.fraction? scalar.text).map fun x => .number (.fraction x)
  | some .nothing => if Plain.isNullWord scalar.text then some .null else none
  | some (.variant _) => none
  | some .foreign => some (.string scalar.text)
  | some .garbled | none =>
    if scalar.style = .plain then Plain.value? scalar.text else some (.string scalar.text)

/-- The natural number that the scalar stands for where no kind of value is expected. It
is not written with a minus, not even if it is zero. -/
def position? (scalar : Written) : Option Nat :=
  match scalar.value? with
  | some (.number (.integer _)) => Plain.natural? scalar.text
  | _ => none

example : ({ text := "5" } : Written).value? = some (.number (.integer 5)) := by decide +kernel

example : ({ text := "5", tag := some .foreign } : Written).value? = some (.string "5") := by
  decide +kernel

example : ({ text := "true", style := .literal, tag := some .boolean } : Written).bool? =
    some true := by
  decide +kernel

example : ({ text := "-0" } : Written).position? = none ∧
    ({ text := "+0" } : Written).position? = some 0 := by
  decide +kernel

end Written

end Keymap
