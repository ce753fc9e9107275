import Keymap.Schema.Record

/-!
# Tagged elements

An element that takes one of several forms names its form in a tag, beside the
fields of the form. The element is read completely before its fields are
looked at: its tag at once, everything else without regard to the schema. As a
sequence it has the tag first and the fields behind it.
-/

namespace Keymap

/-- A form of a tagged element: its name, and how the value is read from what
stands beside the tag or behind it. -/
structure Form (β : Type) where
  name : String
  ofEntries : List (Node × Node) → Except SchemaError β
  ofItems : List Node → Except SchemaError β

namespace Form

/-- The form that has some fields, put together by `build`. Messages call it
`type::label`. A form without fields takes any entries. -/
def ofFields {αs : List Type} (name type label : String) (fields : Fields αs)
    (build : Values αs → β) : Form β where
  name := name
  ofEntries entries := do
    let entries := if fields.names.isEmpty then [] else entries
    return build (← fields.ofEntries entries)
  ofItems items := do
    let count := fields.names.length
    let short (index : Nat) := SchemaError.tooFewItems index (.form type label) count
    let (values, left) ← fields.ofItems short 0 items
    if left.isEmpty then return build values else throw (.tooManyItems items.length count)

/-- The form with a name among some forms. -/
def find (forms : List (Form β)) (name : String) : Except SchemaError (Form β) :=
  match forms.find? (fun form => decide (form.name = name)) with
  | some form => .ok form
  | none => .error (.unknownVariant name (forms.map (·.name)))

/-- The form that a tag names. -/
def ofTag (forms : List (Form β)) : Node → Except SchemaError (Form β)
  | .scalar (.string name) => find forms name
  | .written scalar => find forms scalar.text
  | node => .error (Codec.mismatch .variantName node)

end Form

/-- An element with its tag in front of its fields. -/
def Fields.withTag {αs : List Type} (fields : Fields αs) (tag name : String)
    (values : Values αs) : Json :=
  .object ((tag, .string name) :: fields.members values)

namespace Codec

/-- A node without unquoted scalars, provided that no part of it is broken. -/
def settled (node : Node) : Except SchemaError Node :=
  match node.settle with
  | some node => .ok node
  | none => .error .malformed

/-- The key is the tag. -/
def isTag (tag : String) : Node → Bool
  | .scalar (.string name) => decide (name = tag)
  | _ => false

/-- The form named by the tag among the entries of a mapping, and the other entries. -/
def splitTag (tag : String) (forms : List (Form β)) (entries : List (Node × Node)) :
    Except SchemaError (Option (Form β) × List (Node × Node)) :=
  entries.foldlM (fun (found, others) entry => do
    let key ← settled entry.1
    if isTag tag key then
      if found.isSome then throw (.duplicateField tag)
      else return (some (← Form.ofTag forms entry.2), others)
    else return (found, others ++ [(key, ← settled entry.2)])) (none, [])

/-- The codec of a tagged element. -/
def tagged (type tag : String) (forms : List (Form β)) (encode : β → Json) : Codec β where
  decode
    | .mapping entries => do
      let (found, others) ← splitTag tag forms entries
      match found with
      | some form => form.ofEntries others
      | none => throw (.missingField tag)
    | .sequence [] | .listed [] => .error (.missingField tag)
    | .sequence (first :: items) | .listed (first :: items) => do
      let form ← Form.ofTag forms first
      form.ofItems (← items.mapM settled)
    | node => .error (mismatch (.tagged type) node)
  encode := encode

end Codec

end Keymap
