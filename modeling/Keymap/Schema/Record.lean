import Keymap.Schema.Codec

/-!
# Records

A record is written as a mapping from the names of its fields to their values,
or as a sequence of the values in the order of declaration. A mapping is read
entry by entry, so that the first mistake in the text is met first: a name that
is unknown or repeated, then its value. Only after the last entry is a missing
field noticed, the first one in the order of declaration. A field with a
default may be missing, and in a sequence only at its end.
-/

namespace Keymap

/-- A field of a record: its name, its codec, and the value it has when it is missing. -/
structure Field (α : Type) where
  name : String
  codec : Codec α
  default : Option α := none

/-- The fields of a record, one for each type. -/
inductive Fields : List Type → Type 1 where
  | nil : Fields []
  | cons {α : Type} {αs : List Type} (field : Field α) (rest : Fields αs) : Fields (α :: αs)

/-- One value for each type. -/
def Values : List Type → Type
  | [] => Unit
  | α :: αs => α × Values αs

/-- For each type a value that is not yet known at first. -/
def Slots : List Type → Type
  | [] => Unit
  | α :: αs => Option α × Slots αs

namespace Fields

/-- A field that must be given. -/
def require {αs : List Type} {α : Type} (name : String) (codec : Codec α) (rest : Fields αs) :
    Fields (α :: αs) :=
  .cons ⟨name, codec, none⟩ rest

/-- A field that may be missing. -/
def optional {αs : List Type} {α : Type} (name : String) (codec : Codec α) (default : α)
    (rest : Fields αs) : Fields (α :: αs) :=
  .cons ⟨name, codec, some default⟩ rest

/-- The names of the fields in the order of declaration. -/
def names : {αs : List Type} → Fields αs → List String
  | _, .nil => []
  | _, .cons field rest => field.name :: rest.names

/-- No field is known yet. -/
def emptySlots : {αs : List Type} → Fields αs → Slots αs
  | _, .nil => ()
  | _, .cons _ rest => (none, rest.emptySlots)

/-- Read the value of the field with a name into its slot. -/
def put (known : List String) (name : String) (node : Node) :
    {αs : List Type} → Fields αs → Slots αs → Except SchemaError (Slots αs)
  | _, .nil, _ => .error (.unknownField name known)
  | _, .cons field rest, (slot, slots) =>
    if field.name = name then
      match slot with
      | some _ => .error (.duplicateField name)
      | none => do return (some (← field.codec.decode node), slots)
    else do return (slot, ← rest.put known name node slots)

/-- The values of all slots, with the defaults of those that are not known. -/
def finish : {αs : List Type} → Fields αs → Slots αs → Except SchemaError (Values αs)
  | _, .nil, _ => .ok ()
  | _, .cons field rest, (slot, slots) => do
    match slot.or field.default with
    | some value => return (value, ← rest.finish slots)
    | none => throw (.missingField field.name)

/-- The name that a key writes, or has at its position. -/
def keyName (known : List String) : Node → Except SchemaError String
  | .scalar (.string name) => .ok name
  | .scalar (.number (.integer n)) =>
    match known[n.toNat]? with
    | some name => .ok name
    | none => .error (.invalidValue n (.fieldPosition known.length))
  | .written scalar => .ok scalar.text
  | node => .error (Codec.mismatch .string node)

/-- The values that the entries of a mapping give. -/
def ofEntries {αs : List Type} (fields : Fields αs) (entries : List (Node × Node)) :
    Except SchemaError (Values αs) := do
  let slots ← entries.foldlM (fun slots entry => do
    fields.put fields.names (← keyName fields.names entry.1) entry.2 slots) fields.emptySlots
  fields.finish slots

/-- The values that the first items of a sequence give, with the items left
over; `index` items stand before them, and `short` is the mistake of a sequence
that ends at an index. -/
def ofItems (short : Nat → SchemaError) :
    {αs : List Type} → Fields αs → Nat → List Node → Except SchemaError (Values αs × List Node)
  | _, .nil, _, items => .ok ((), items)
  | _, .cons field rest, index, [] => do
    match field.default with
    | some value =>
      let (values, left) ← rest.ofItems short (index + 1) []
      return ((value, values), left)
    | none => throw (short index)
  | _, .cons field rest, index, item :: items => do
    let value ← field.codec.decode item
    let (values, left) ← rest.ofItems short (index + 1) items
    return ((value, values), left)

/-- The members that write the values. -/
def members : {αs : List Type} → Fields αs → Values αs → List (String × Json)
  | _, .nil, _ => []
  | _, .cons field rest, (value, values) =>
    (field.name, field.codec.encode value) :: rest.members values

end Fields

/-- The codec of a record: its values are put together by `build` and taken apart by `view`. -/
def Codec.record (name : String) {αs : List Type} (fields : Fields αs)
    (build : Values αs → β) (view : β → Values αs) : Codec β where
  decode
    | .sequence items => do
      let short (index : Nat) := SchemaError.tooFewItems index (.record name) fields.names.length
      let (values, left) ← fields.ofItems short 0 items
      if left.isEmpty then return build values else throw .malformed
    | node => do
      return build (← fields.ofEntries (← Codec.entriesOf (.record name) node))
  encode value := .object (fields.members (view value))

end Keymap
