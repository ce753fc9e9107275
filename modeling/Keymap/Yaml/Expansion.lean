import Keymap.Document.Node
import Keymap.Yaml.Tree

/-!
# Aliases replaced by their nodes

A document is the tree of a text with every alias replaced by its node. Each
node with an anchor is expanded once, however often it is named. Two limits
keep a short text from standing for a document without end: how deep it may be
nested, and how many aliases may be replaced in relation to its length. A node
inside itself goes beyond the first.
-/

namespace Keymap.Yaml

/-- A document, the number of aliases that were replaced in it, and its depth. -/
structure Expanded where
  node : Node
  aliases : Nat := 0
  depth : Nat := 0

/-- A step of replacing aliases, with the nodes that are expanded already; nothing if a
node stands inside itself. -/
abbrev Expanding := StateT (List (Nat × Expanded)) Option

namespace Expanded

/-- Several documents side by side. -/
def joined (parts : List Expanded) (node : Node) : Expanded :=
  { node := node
    aliases := (parts.map (·.aliases)).sum
    depth := parts.foldl (fun depth part => max depth part.depth) 0 + 1 }

/-- A sequence or a mapping with its tag. -/
def tagged (tag : Option Tag) (node : Node) : Node :=
  match tag.bind Tag.variant? with
  | some name => .variant name node
  | none => node

end Expanded

namespace Tree

mutual

/-- The number of events in which a text tells the tree: one for a scalar or an alias, and two
around the parts of a sequence or a mapping. -/
def eventCount : Tree → Nat
  | .scalar _ => 1
  | .sequence _ items => 2 + itemEvents items
  | .mapping _ entries => 2 + entryEvents entries
  | .alias _ => 1

/-- The number of events of items. -/
def itemEvents : List Tree → Nat
  | [] => 0
  | item :: rest => eventCount item + itemEvents rest

/-- The number of events of entries. -/
def entryEvents : List (Tree × Tree) → Nat
  | [] => 0
  | (key, value) :: rest => eventCount key + eventCount value + entryEvents rest

end

mutual

/-- The tree with every alias replaced. -/
def expand (expandAlias : Nat → Expanding Expanded) : Tree → Expanding Expanded
  | .scalar leaf => return { node := .written leaf }
  | .alias number => do
    let expanded ← expandAlias number
    return { expanded with aliases := expanded.aliases + 1 }
  | .sequence tag items => do
    let items ← expandItems expandAlias items
    return .joined items (Expanded.tagged tag (.listed (items.map (·.node))))
  | .mapping tag entries => do
    let entries ← expandEntries expandAlias entries
    let parts := entries.flatMap fun entry => [entry.1, entry.2]
    let nodes := entries.map fun entry => (entry.1.node, entry.2.node)
    return .joined parts (Expanded.tagged tag (.mapping nodes))

/-- Items with every alias replaced. -/
def expandItems (expandAlias : Nat → Expanding Expanded) :
    List Tree → Expanding (List Expanded)
  | [] => return []
  | item :: rest => do
    let item ← expand expandAlias item
    return item :: (← expandItems expandAlias rest)

/-- Entries with every alias replaced. -/
def expandEntries (expandAlias : Nat → Expanding Expanded) :
    List (Tree × Tree) → Expanding (List (Expanded × Expanded))
  | [] => return []
  | (key, value) :: rest => do
    let key ← expand expandAlias key
    let value ← expand expandAlias value
    return (key, value) :: (← expandEntries expandAlias rest)

end

end Tree

/-- The node with a number, expanded now or before. A chain of nodes inside each other is as
long as there are numbers. -/
def Anchors.expand (anchors : Anchors) : (fuel : Nat) → (number : Nat) → Expanding Expanded
  | 0, _ => StateT.lift none
  | fuel + 1, number => do
    match (← get).lookup number with
    | some expanded => return expanded
    | none => do
      let tree ← StateT.lift (anchors.node? number)
      let expanded ← tree.expand (anchors.expand fuel)
      modify fun known => (number, expanded) :: known
      return expanded

/-- The greatest depth of a document. -/
def maxDepth : Nat := 128

/-- The greatest number of aliases to be replaced for each event. -/
def maxAliases : Nat := 100

/-- The document of a tree with anchors, if it keeps within the limits. -/
def Tree.document? (tree : Tree) (anchors : Anchors) : Option Node := do
  let (expanded, _) ← tree.expand (anchors.expand anchors.starts.length) []
  if expanded.depth ≤ maxDepth ∧ expanded.aliases ≤ maxAliases * tree.eventCount then
    return expanded.node
  else none

end Yaml

/-- The document that a YAML text writes. -/
def Document.ofYamlText (text : String) : Document :=
  let root := do
    let (tree, anchors) ← Yaml.tree? text
    tree.document? anchors
  match root with
  | some root => ⟨root, true⟩
  | none => ⟨.broken, false⟩

end Keymap
