import Keymap.Distinct

/-!
# Symbols and their indices

Firmware tables are addressed by position, so every named thing has an index,
counted for each kind on its own in the order in which the names are first
seen. A table finds a name by its index in a list, and the index of a name among
the entries that it made under the names. Interning a name that is known changes
nothing.
-/

namespace Keymap

/-- The kinds of things that are numbered independently of one another. -/
inductive SymbolKind where
  | capability
  | trigger
  | result
  | pixel
  | animation
  deriving DecidableEq

namespace SymbolKind

/-- All kinds. -/
def all : List SymbolKind := [.capability, .trigger, .result, .pixel, .animation]

/-- The words for a kind. -/
def text : SymbolKind → String
  | .capability => "capability"
  | .trigger => "trigger macro"
  | .result => "result macro"
  | .pixel => "pixel"
  | .animation => "animation"

end SymbolKind

/-- The names of one kind, with the index of each of them. -/
structure SymbolTable where
  /-- The names in the order of their indices. -/
  names : List String := []
  /-- The index of every name, under the name. -/
  indices : List (String × Nat) := []
  deriving DecidableEq

namespace SymbolTable

/-- The index of a name, which gets the next one if it is not known. -/
def intern (table : SymbolTable) (name : String) : SymbolTable × Nat :=
  match table.indices.lookup name with
  | some i => (table, i)
  | none =>
    let i := table.names.length
    (⟨table.names ++ [name], (name, i) :: table.indices⟩, i)

/-- The table of distinct names in the order of their indices. -/
def ofNames (names : List String) : SymbolTable := ⟨names, names.zipIdx.reverse⟩

end SymbolTable

/-- The names of every kind with their indices. -/
structure SymbolIndex where
  capabilities : SymbolTable := {}
  triggers : SymbolTable := {}
  results : SymbolTable := {}
  pixels : SymbolTable := {}
  animations : SymbolTable := {}
  deriving DecidableEq

namespace SymbolIndex

/-- The index without names. -/
def empty : SymbolIndex := {}

/-- The names of a kind with their indices. -/
def table (index : SymbolIndex) : SymbolKind → SymbolTable
  | .capability => index.capabilities
  | .trigger => index.triggers
  | .result => index.results
  | .pixel => index.pixels
  | .animation => index.animations

/-- The index with another table for a kind. -/
def setTable (index : SymbolIndex) (kind : SymbolKind) (table : SymbolTable) : SymbolIndex :=
  match kind with
  | .capability => { index with capabilities := table }
  | .trigger => { index with triggers := table }
  | .result => { index with results := table }
  | .pixel => { index with pixels := table }
  | .animation => { index with animations := table }

/-- A table is set for one kind only. -/
theorem table_setTable (index : SymbolIndex) (kind other : SymbolKind) (table : SymbolTable) :
    (index.setTable kind table).table other =
      if other = kind then table else index.table other := by
  cases kind <;> cases other <;> rfl

/-- The tables of all kinds make up an index. -/
theorem eq_of_tables {index other : SymbolIndex} (h : ∀ kind, index.table kind = other.table kind) :
    index = other := by
  obtain ⟨capabilities, triggers, results, pixels, animations⟩ := index
  obtain rfl : capabilities = _ := h .capability
  obtain rfl : triggers = _ := h .trigger
  obtain rfl : results = _ := h .result
  obtain rfl : pixels = _ := h .pixel
  obtain rfl : animations = _ := h .animation
  rfl

/-- The names of a kind in the order of their indices. -/
def names (index : SymbolIndex) (kind : SymbolKind) : List String := (index.table kind).names

/-- The index of a name that is known. -/
def resolve (index : SymbolIndex) (kind : SymbolKind) (name : String) : Option Nat :=
  (index.table kind).indices.lookup name

/-- The name with an index. -/
def name? (index : SymbolIndex) (kind : SymbolKind) (i : Nat) : Option String :=
  (index.names kind)[i]?

/-- The number of names of a kind. -/
def size (index : SymbolIndex) (kind : SymbolKind) : Nat := (index.names kind).length

/-- The names of a kind with their indices, in the order of the indices. -/
def entries (index : SymbolIndex) (kind : SymbolKind) : List (Nat × String) :=
  (index.names kind).zipIdx.map fun entry => (entry.2, entry.1)

/-- The index of a name among those of its kind, which gets the next one if it is not known. -/
def intern (index : SymbolIndex) (kind : SymbolKind) (name : String) : SymbolIndex × Nat :=
  let (table, i) := (index.table kind).intern name
  (index.setTable kind table, i)

end SymbolIndex

end Keymap
