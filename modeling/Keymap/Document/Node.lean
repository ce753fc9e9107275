import Keymap.Document.Json
import Keymap.Document.Written

/-!
# Documents as trees

A document is read into a tree before its content is looked at. Four things
set the tree apart from a JSON value. Where the text stops being well formed
the tree has a broken node, so that a reader of the content meets earlier
mistakes first. A scalar may keep the way it is written, because where a text is
expected it stands for its own characters. A sequence may come from a language
where it never stands for a record. And a sequence or a mapping may have the
name of a choice in front.
-/

namespace Keymap

/-- A node of a document. -/
inductive Node where
  | scalar (value : Scalar)
  /-- A scalar of a language where it matters how it is written. -/
  | written (scalar : Written)
  | sequence (items : List Node)
  /-- A sequence in a language where it cannot stand for the fields of a record. -/
  | listed (items : List Node)
  | mapping (entries : List (Node × Node))
  /-- A sequence or a mapping behind the name of a choice. -/
  | variant (name : String) (content : Node)
  /-- The text is not well formed from here on. -/
  | broken

namespace Node

/-- The node without the name of a choice in front. -/
def content : Node → Node
  | .variant _ content => content
  | node => node

mutual

/-- The document that a JSON value is. -/
def ofJson : Json → Node
  | .scalar value => .scalar value
  | .array items => .sequence (ofItems items)
  | .object members => .mapping (ofMembers members)

/-- The nodes of the items of an array. -/
def ofItems : List Json → List Node
  | [] => []
  | item :: rest => ofJson item :: ofItems rest

/-- The entries of the members of an object. -/
def ofMembers : List (String × Json) → List (Node × Node)
  | [] => []
  | (key, value) :: rest => (.scalar (.string key), ofJson value) :: ofMembers rest

end

/-- What a key says, once it is settled: a text, or a position among the names that can stand
there. A key that is neither says nothing. -/
def settledKey (key settled : Node) : Node :=
  match key, settled with
  | .written leaf, .scalar (.number _) =>
    match leaf.position? with
    | some n => .scalar (.number (.integer n))
    | none => .scalar .null
  | _, _ => settled

mutual

/-- Every scalar stands for its value, and every sequence is like any other;
nothing if some part is broken, or is a choice. -/
def settle : Node → Option Node
  | .scalar value => some (.scalar value)
  | .written leaf => leaf.value?.map .scalar
  | .sequence items => (settleItems items).map .sequence
  | .listed items => (settleItems items).map .sequence
  | .mapping entries => (settleEntries entries).map .mapping
  | .variant _ _ => none
  | .broken => none

/-- Settle the items of a sequence. -/
def settleItems : List Node → Option (List Node)
  | [] => some []
  | item :: rest => do
    let item ← settle item
    let rest ← settleItems rest
    return item :: rest

/-- Settle the entries of a mapping. -/
def settleEntries : List (Node × Node) → Option (List (Node × Node))
  | [] => some []
  | (key, value) :: rest => do
    let name ← settle key
    let value ← settle value
    let rest ← settleEntries rest
    return (settledKey key name, value) :: rest

end

end Node

/-- A document: its root, and whether nothing but blanks follows it. -/
structure Document where
  root : Node
  complete : Bool

end Keymap
