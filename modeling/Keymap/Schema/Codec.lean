import Keymap.Document.Node
import Keymap.Schema.Error

/-!
# Codecs

A codec reads values of a type from the nodes of a document and writes them as
JSON. The codecs of this module are those of single values, of texts chosen
from a list, of lists and of optional values. A codec is faithful to a value
when it reads back what it writes for it.
-/

namespace Keymap

/-- How values of a type are read from a document and written as JSON. -/
structure Codec (α : Type) where
  decode : Node → Except SchemaError α
  encode : α → Json

namespace Codec

/-- The codec reads back what it writes for the value. -/
def Faithful (codec : Codec α) (value : α) : Prop :=
  codec.decode (Node.ofJson (codec.encode value)) = .ok value

/-- The mistake of a node that is not what is expected. -/
def mismatch (expected : Expected) : Node → SchemaError
  | .scalar value => .invalidType (.scalar value) expected
  | .written scalar => .invalidType (.scalar (scalar.value?.getD (.string scalar.text))) expected
  | .sequence _ | .listed _ => .invalidType .sequence expected
  | .mapping _ => .invalidType .mapping expected
  | .variant _ _ | .broken => .malformed

/-- The integer that a scalar writes; a natural has no sign in front but a plus. -/
def writtenInteger (expected : Expected) (scalar : Written) : Option Int :=
  match expected with
  | .unsigned _ => scalar.natural?.map fun n => n
  | _ => scalar.integer?

/-- The integer that a node writes. -/
def integerOf (expected : Expected) : Node → Except SchemaError Int
  | .scalar (.number (.integer n)) => .ok n
  | .written scalar =>
    match writtenInteger expected scalar with
    | some n => .ok n
    | none => .error (mismatch expected (.written scalar))
  | node => .error (mismatch expected node)

/-- Integers from `low` up to `high`, held in the type `α`. -/
def bounded (expected : Expected) (low high : Int) (ofInt : Int → α) (toInt : α → Int) :
    Codec α where
  decode node := do
    let n ← integerOf expected node
    if low ≤ n ∧ n ≤ high then return ofInt n else throw (.invalidValue n expected)
  encode a := .int (toInt a)

/-- Naturals of eight bits. -/
def uint8 : Codec UInt8 :=
  bounded (.unsigned 8) 0 (2 ^ 8 - 1) (fun n => .ofNat n.toNat) (fun n => n.toNat)

/-- Naturals of sixteen bits. -/
def uint16 : Codec UInt16 :=
  bounded (.unsigned 16) 0 (2 ^ 16 - 1) (fun n => .ofNat n.toNat) (fun n => n.toNat)

/-- Naturals of 32 bits. -/
def uint32 : Codec UInt32 :=
  bounded (.unsigned 32) 0 (2 ^ 32 - 1) (fun n => .ofNat n.toNat) (fun n => n.toNat)

/-- Integers of sixteen bits. -/
def int16 : Codec Int16 := bounded (.signed 16) (-2 ^ 15) (2 ^ 15 - 1) .ofInt (·.toInt)

/-- Integers of 32 bits. -/
def int32 : Codec Int32 := bounded (.signed 32) (-2 ^ 31) (2 ^ 31 - 1) .ofInt (·.toInt)

/-- Integers of 64 bits. -/
def int64 : Codec Int64 := bounded (.signed 64) (-2 ^ 63) (2 ^ 63 - 1) .ofInt (·.toInt)

/-- Fractional numbers; an integer is one too. -/
def fraction : Codec Binary64 where
  decode
    | .scalar (.number (.fraction x)) => .ok x
    | .scalar (.number (.integer n)) => .ok (.ofInt n)
    | .written scalar =>
      match scalar.fraction? with
      | some x => .ok x
      | none => .error (mismatch .fraction (.written scalar))
    | node => .error (mismatch .fraction node)
  encode x := .scalar (.number (.fraction x))

/-- Texts; a scalar is the text of its characters, however it is written. -/
def string : Codec String where
  decode
    | .scalar (.string s) => .ok s
    | .written scalar => .ok scalar.text
    | node => .error (mismatch .string node)
  encode s := .string s

/-- Truth values. -/
def bool : Codec Bool where
  decode
    | .scalar (.bool b) => .ok b
    | .written scalar =>
      match scalar.bool? with
      | some b => .ok b
      | none => .error (mismatch .boolean (.written scalar))
    | node => .error (mismatch .boolean node)
  encode b := .bool b

/-- A value that may be absent, written as `null`. -/
def option (codec : Codec α) : Codec (Option α) where
  decode
    | .scalar .null => .ok none
    | .written scalar =>
      match scalar.isAbsent? with
      | some true => .ok none
      | some false => (codec.decode (.written scalar)).map some
      | none => .error (mismatch .unit (.written scalar))
    | node => (codec.decode node).map some
  encode
    | none => .null
    | some a => codec.encode a

/-- The items of a node that writes a sequence; an empty unquoted scalar writes one too. -/
def itemsOf (expected : Expected) (node : Node) : Except SchemaError (List Node) :=
  match node.content with
  | .sequence items | .listed items => .ok items
  | .written scalar =>
    if scalar.isEmpty then .ok [] else .error (mismatch expected (.written scalar))
  | node => .error (mismatch expected node)

/-- The entries of a node that writes a mapping; an empty unquoted scalar writes one too. -/
def entriesOf (expected : Expected) (node : Node) : Except SchemaError (List (Node × Node)) :=
  match node.content with
  | .mapping entries => .ok entries
  | .written scalar =>
    if scalar.isEmpty then .ok [] else .error (mismatch expected (.written scalar))
  | node => .error (mismatch expected node)

/-- Lists of values. -/
def list (codec : Codec α) : Codec (List α) where
  decode node := do (← itemsOf .sequence node).mapM codec.decode
  encode values := .array (values.map codec.encode)

/-- Insert or replace an entry, keeping the keys in ascending order. -/
def insertEntry (key : String) (value : α) : List (String × α) → List (String × α)
  | [] => [(key, value)]
  | (k, v) :: rest =>
    if key < k then (key, value) :: (k, v) :: rest
    else if key = k then (key, value) :: rest
    else (k, v) :: insertEntry key value rest

/-- Texts by name, in ascending order of the names; of entries with one name the last counts. -/
def textMap : Codec (List (String × String)) where
  decode node := do
    let entries ← entriesOf .map node
    entries.foldlM (fun sorted entry => do
      let key ← string.decode entry.1
      let value ← string.decode entry.2
      return insertEntry key value sorted) []
  encode entries := .object (entries.map fun entry => (entry.1, .string entry.2))

/-- One of some values by its name. -/
def lookupName (names : List (String × α)) (name : String) : Except SchemaError α :=
  match names.find? (fun entry => decide (entry.1 = name)) with
  | some entry => .ok entry.2
  | none => .error (.unknownVariant name (names.map (·.1)))

/-- The name of a value, empty if the list does not hold it. -/
def nameOf [DecidableEq α] (names : List (String × α)) (value : α) : String :=
  ((names.find? (fun entry => decide (entry.2 = value))).map (·.1)).getD ""

/-- A value written by its name, or as a mapping from its name to `null`, or as a
choice that says nothing more. Any other form, and a second entry, makes the
text malformed. -/
def named [DecidableEq α] (names : List (String × α)) : Codec α where
  decode
    | .scalar (.string name) => lookupName names name
    | .written scalar =>
      match scalar.tag.bind Tag.variant? with
      | none => lookupName names scalar.text
      | some name => do
        let a ← lookupName names name
        if scalar.isUnit then return a else throw (mismatch .unit (.written scalar))
    | .mapping ((key, value) :: rest) => do
      let a ← match key with
        | .scalar (.string name) => lookupName names name
        | _ => throw .malformed
      match value with
      | .scalar .null => pure ()
      | node => throw (mismatch .unit node)
      if rest.isEmpty then return a else throw .malformed
    | _ => .error .malformed
  encode value := .string (nameOf names value)

/-- One of some values by its position among them. -/
def lookupPosition (names : List (String × α)) (position : Int) : Except SchemaError α :=
  match names[position.toNat]? with
  | some entry => .ok entry.2
  | none => .error (.invalidValue position (.variantPosition names.length))

/-- A value written by its name inside an element that is read as a whole first;
as the only key of a mapping it may also be written by its position. -/
def settledNamed [DecidableEq α] (names : List (String × α)) : Codec α where
  decode
    | .scalar (.string name) => lookupName names name
    | .mapping [(key, value)] => do
      let a ← match key with
        | .scalar (.string name) => lookupName names name
        | .scalar (.number (.integer n)) => lookupPosition names n
        | node => throw (mismatch .variantName node)
      match value with
      | .scalar .null | .mapping [] => return a
      | node => throw (mismatch .unit node)
    | .mapping _ => .error .notSingleKey
    | node => .error (mismatch .nameOrMap node)
  encode value := .string (nameOf names value)

end Codec

end Keymap
