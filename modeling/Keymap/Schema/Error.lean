import Keymap.Document.Json
import Keymap.Text.Characters

/-!
# Mistakes against the schema

What can be wrong with a document that is read against the schema of a
configuration, and how each mistake is worded. The first mistake in document
order is the one that is reported.
-/

namespace Keymap

/-- What stands in a document where something else is expected. -/
inductive Found where
  | scalar (value : Scalar)
  | sequence
  | mapping

namespace Found

/-- The words for what was found. -/
def text : Found → String
  | .scalar .null => "null"
  | .scalar (.bool b) => "boolean `" ++ (if b then "true" else "false") ++ "`"
  | .scalar (.number (.integer n)) => "integer `" ++ toString n ++ "`"
  | .scalar (.number (.fraction x)) =>
    "floating point `" ++ (Number.fraction x).json ++ "`"
  | .scalar (.string s) => "string " ++ Text.quoted s
  | .sequence => "sequence"
  | .mapping => "map"

end Found

/-- What the schema expects at a place of a document. -/
inductive Expected where
  | unsigned (bits : Nat)
  | signed (bits : Nat)
  | fraction
  | string
  | boolean
  | sequence
  | map
  | record (name : String)
  | form (type name : String)
  | variantName
  /-- A position among some names. -/
  | variantPosition (count : Nat)
  /-- A position among some fields. -/
  | fieldPosition (count : Nat)
  | tagged (name : String)
  | nameOrMap
  | singleKey
  | unit

namespace Expected

/-- The words for what is expected. -/
def text : Expected → String
  | .unsigned bits => "u" ++ toString bits
  | .signed bits => "i" ++ toString bits
  | .fraction => "f64"
  | .string => "a string"
  | .boolean => "a boolean"
  | .sequence => "a sequence"
  | .map => "a map"
  | .record name => "struct " ++ name
  | .form type name => "struct variant " ++ type ++ "::" ++ name
  | .variantName => "variant identifier"
  | .variantPosition count => "variant index 0 <= i < " ++ toString count
  | .fieldPosition count => "field index 0 <= i < " ++ toString count
  | .tagged name => "internally tagged enum " ++ name
  | .nameOrMap => "string or map"
  | .singleKey => "map with a single key"
  | .unit => "unit"

end Expected

/-- A mistake in a document. -/
inductive SchemaError where
  /-- The text is not well formed. -/
  | malformed
  | missingField (name : String)
  | unknownField (name : String) (known : List String)
  | duplicateField (name : String)
  | unknownVariant (name : String) (known : List String)
  | invalidType (found : Found) (expected : Expected)
  | invalidValue (value : Int) (expected : Expected)
  | notSingleKey
  /-- A record written as a sequence is too short. -/
  | tooFewItems (count : Nat) (expected : Expected) (fields : Nat)
  /-- A record written as a sequence is too long. -/
  | tooManyItems (count fields : Nat)
  /-- A value fits none of the forms of a type. -/
  | noForm (type : String)

namespace SchemaError

/-- A name in the quotes that messages use. -/
def ticked (name : String) : String := "`" ++ name ++ "`"

/-- A choice among names. -/
def oneOf : List String → String
  | [a] => ticked a
  | [a, b] => ticked a ++ " or " ++ ticked b
  | names => "one of " ++ String.intercalate ", " (names.map ticked)

/-- A number of items. -/
def elements (n : Nat) : String :=
  toString n ++ if n = 1 then " element" else " elements"

/-- The wording of a mistake; a malformed text has none of its own. -/
def message : SchemaError → String
  | .malformed => "malformed document"
  | .missingField name => "missing field " ++ ticked name
  | .unknownField name known =>
    if known.isEmpty then "unknown field " ++ ticked name ++ ", there are no fields"
    else "unknown field " ++ ticked name ++ ", expected " ++ oneOf known
  | .duplicateField name => "duplicate field " ++ ticked name
  | .unknownVariant name known =>
    "unknown variant " ++ ticked name ++ ", expected " ++ oneOf known
  | .invalidType found expected =>
    "invalid type: " ++ found.text ++ ", expected " ++ expected.text
  | .invalidValue value expected =>
    "invalid value: integer `" ++ toString value ++ "`, expected " ++ expected.text
  | .notSingleKey => "invalid value: map, expected " ++ Expected.text .singleKey
  | .tooFewItems count expected fields =>
    "invalid length " ++ toString count ++ ", expected " ++ expected.text ++ " with " ++
      elements fields
  | .tooManyItems count fields =>
    "invalid length " ++ toString count ++ ", expected " ++ elements fields ++ " in sequence"
  | .noForm type => "data did not match any variant of untagged enum " ++ type

end SchemaError

end Keymap
