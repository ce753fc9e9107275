import Keymap.Yaml.Token

/-!
# Trees of YAML texts

The tokens of a text are read into one tree. Where a value may stand and none
does, there is an empty scalar. A text has exactly one document.

An anchor gives its node a number, and an alias keeps the number that the anchor
with its name had last. The number of an anchor is the count of the names that
were known before it, also when its own name was one of them. Hence two anchors
may have one number; it then belongs to the node that begins later, and so do
all its aliases.
-/

namespace Keymap.Yaml

/-- A tree whose aliases are not yet replaced. -/
inductive Tree where
  | scalar (scalar : Written)
  | sequence (tag : Option Tag) (items : List Tree)
  | mapping (tag : Option Tag) (entries : List (Tree × Tree))
  /-- The node with a number. -/
  | alias (number : Nat)

/-- The node where none is written. -/
def Tree.empty : Tree := .scalar { text := "" }

/-- The anchors of a text, of each kind of entry the latest first. -/
structure Anchors where
  /-- The numbers of the names. -/
  names : List (String × Nat) := []
  /-- Which of the nodes with anchors, in the order of their beginnings, has a number. -/
  starts : List (Nat × Nat) := []
  /-- The nodes that are complete, by the order of their beginnings. -/
  nodes : List (Nat × Tree) := []

namespace Anchors

/-- Give the node that begins here a name. -/
def declare (anchors : Anchors) (name : String) : Anchors :=
  let others := anchors.names.filter fun entry => entry.1 ≠ name
  let number := anchors.names.length
  { anchors with
    names := (name, number) :: others
    starts := (number, anchors.starts.length) :: anchors.starts }

/-- The node with a number. -/
def node? (anchors : Anchors) (number : Nat) : Option Tree :=
  (anchors.starts.lookup number).bind fun start => anchors.nodes.lookup start

end Anchors

/-- Tokens that are left, and what is known about handles and anchors. -/
structure Remaining where
  tokens : List Token
  directives : List Directive := []
  anchors : Anchors := {}

/-- A step of building a tree; nothing if the text is malformed. -/
abbrev Building := StateT Remaining Option

/-- What stands in front of a node. -/
structure Properties where
  anchor : Option String := none
  tag : Option Tag := none

namespace Building

/-- The text is malformed. -/
def fail {α : Type} : Building α := StateT.lift none

/-- The next token, which stays. -/
def peek : Building (Option Token) := return (← get).tokens.head?

/-- Take the next token away. -/
def skip : Building Unit := modify fun r => { r with tokens := r.tokens.drop 1 }

/-- Give the node that begins here a name, and tell how many such nodes began before. -/
def declare (name : String) : Building Nat := do
  let start := (← get).anchors.starts.length
  modify fun r => { r with anchors := r.anchors.declare name }
  return start

/-- Say what a node that has begun is. -/
def define (start : Nat) (tree : Tree) : Building Unit :=
  modify fun r =>
    { r with anchors := { r.anchors with nodes := (start, tree) :: r.anchors.nodes } }

/-- The number of a name. -/
def lookup (name : String) : Building Nat := do
  match (← get).anchors.names.lookup name with
  | some number => return number
  | none => fail

/-- The tag that is written. -/
def resolve (tag : TagText) : Building Tag := do
  match tag.resolve (← get).directives with
  | some tag => return tag
  | none => fail

/-- The anchor and the tag in front of a node, in either order. -/
def readProperties : Building Properties := do
  match (← get).tokens with
  | .anchor name :: .tag tag :: _ | .tag tag :: .anchor name :: _ => do
    skip
    skip
    return ⟨some name, some (← resolve tag)⟩
  | .anchor name :: _ => do
    skip
    return ⟨some name, none⟩
  | .tag tag :: _ => do
    skip
    return ⟨none, some (← resolve tag)⟩
  | _ => return {}

/-- The node that is missing behind its properties; there have to be some. -/
def missing (properties : Properties) : Building Tree :=
  if properties.anchor.isNone && properties.tag.isNone then fail
  else return .scalar { text := "", tag := properties.tag }

/-- A node is missing before one of these tokens. -/
def orEmpty (stops : List Token) (read : Building Tree) : Building Tree := do
  match ← peek with
  | some token => if token ∈ stops then return .empty else read
  | none => return .empty

/-- The key behind a question mark inside square brackets. If it is missing, the token that
stands in its place is lost. -/
def pairKey (read : Building Tree) : Building Tree := do
  match ← peek with
  | some token =>
    if token ∈ [.value, .comma, .flowSequenceEnd] then do
      skip
      return .empty
    else read
  | none => return .empty

mutual

/-- A node. Inside a block it may be a block; behind a key the items of a
sequence need not be indented. -/
def node : (fuel : Nat) → (block loose : Bool) → Building Tree
  | 0, _, _ => fail
  | fuel + 1, block, loose => do
    match ← peek with
    | some (.alias name) => do
      skip
      return .alias (← lookup name)
    | _ => do
      let properties ← readProperties
      match properties.anchor with
      | none => content fuel block loose properties
      | some name => do
        let start ← declare name
        let tree ← content fuel block loose properties
        define start tree
        return tree

/-- A node behind its properties; it may be missing if there are any. -/
def content : (fuel : Nat) → (block loose : Bool) → Properties → Building Tree
  | 0, _, _, _ => fail
  | fuel + 1, block, loose, properties => do
    let tag := properties.tag
    match ← peek with
    | some (.scalar text style) => do
      skip
      return .scalar ⟨text, style, tag⟩
    | some .flowSequence => do
      skip
      return .sequence tag (← flowItems fuel true)
    | some .flowMapping => do
      skip
      return .mapping tag (← flowEntries fuel true)
    | some .item =>
      if loose then return .sequence tag (← looseItems fuel) else missing properties
    | some .blockSequence =>
      if block then do
        skip
        return .sequence tag (← blockItems fuel)
      else missing properties
    | some .blockMapping =>
      if block then do
        skip
        return .mapping tag (← blockEntries fuel)
      else missing properties
    | _ => missing properties

/-- The items of a block up to its end. -/
def blockItems : (fuel : Nat) → Building (List Tree)
  | 0 => fail
  | fuel + 1 => do
    match ← peek with
    | some .item => do
      skip
      let first ← orEmpty [.item, .blockEnd] (node fuel true false)
      return first :: (← blockItems fuel)
    | some .blockEnd => do
      skip
      return []
    | _ => fail

/-- Items that are not indented, up to the first token that is none. -/
def looseItems : (fuel : Nat) → Building (List Tree)
  | 0 => fail
  | fuel + 1 => do
    match ← peek with
    | some .item => do
      skip
      let first ← orEmpty [.item, .key, .value, .blockEnd] (node fuel true false)
      return first :: (← looseItems fuel)
    | _ => return []

/-- The entries of a block up to its end. -/
def blockEntries : (fuel : Nat) → Building (List (Tree × Tree))
  | 0 => fail
  | fuel + 1 => do
    match ← peek with
    | some .key => do
      skip
      let key ← orEmpty [.key, .value, .blockEnd] (node fuel true true)
      let value ← blockValue fuel
      return (key, value) :: (← blockEntries fuel)
    | some .blockEnd => do
      skip
      return []
    | _ => fail

/-- The value of an entry of a block. -/
def blockValue : (fuel : Nat) → Building Tree
  | 0 => fail
  | fuel + 1 => do
    match ← peek with
    | some .value => do
      skip
      orEmpty [.key, .value, .blockEnd] (node fuel true true)
    | _ => return .empty

/-- The items of a sequence in brackets; a comma stands in front of all but the first. -/
def flowItems : (fuel : Nat) → (first : Bool) → Building (List Tree)
  | 0, _ => fail
  | fuel + 1, first => do
    match ← peek with
    | some .flowSequenceEnd => do
      skip
      return []
    | some token => do
      if !first then
        if token = .comma then skip else fail
      match ← peek with
      | some .flowSequenceEnd => do
        skip
        return []
      | some .key => do
        skip
        let key ← pairKey (node fuel false false)
        let value ← flowValue fuel [.comma, .flowSequenceEnd]
        return .mapping none [(key, value)] :: (← flowItems fuel false)
      | _ => do
        let item ← node fuel false false
        return item :: (← flowItems fuel false)
    | none => fail

/-- The entries of a mapping in braces; a comma stands in front of all but the first. -/
def flowEntries : (fuel : Nat) → (first : Bool) → Building (List (Tree × Tree))
  | 0, _ => fail
  | fuel + 1, first => do
    match ← peek with
    | some .flowMappingEnd => do
      skip
      return []
    | some token => do
      if !first then
        if token = .comma then skip else fail
      match ← peek with
      | some .flowMappingEnd => do
        skip
        return []
      | some .key => do
        skip
        let key ← orEmpty [.value, .comma, .flowMappingEnd] (node fuel false false)
        let value ← flowValue fuel [.comma, .flowMappingEnd]
        return (key, value) :: (← flowEntries fuel false)
      | _ => do
        let key ← node fuel false false
        return (key, .empty) :: (← flowEntries fuel false)
    | none => fail

/-- The value of an entry inside brackets. -/
def flowValue : (fuel : Nat) → (stops : List Token) → Building Tree
  | 0, _ => fail
  | fuel + 1, stops => do
    match ← peek with
    | some .value => do
      skip
      orEmpty stops (node fuel false false)
    | _ => return .empty

end

/-- The directives that come next. -/
def readDirectives : Building (List Directive) := do
  let tokens := (← get).tokens
  let directives := tokens.map fun token =>
    match token with
    | .directive directive => some directive
    | _ => none
  let directives := (directives.takeWhile Option.isSome).filterMap id
  modify fun r => { r with tokens := tokens.drop directives.length, directives := directives }
  return directives

/-- A document ends before the next token. -/
def endsDocument : Option Token → Bool
  | none | some (.directive _) | some .documentStart | some .documentEnd => true
  | _ => false

/-- The node of the only document, whose marks may be missing. -/
def document (fuel : Nat) : Building Tree := do
  let directives ← readDirectives
  let marked := (← peek) = some .documentStart
  if !Directive.consistent directives || (!directives.isEmpty && !marked) then fail
  if marked then skip
  let tree ← if marked && endsDocument (← peek) then pure .empty else node fuel true false
  modify fun r => { r with tokens := r.tokens.dropWhile (· = .documentEnd) }
  if (← get).tokens.isEmpty then return tree else fail

end Building

/-- The tree of a text and its anchors. Every token is read within three turns. -/
def tree? (text : String) : Option (Tree × Anchors) := do
  let tokens ← tokens? text
  let (tree, remaining) ← Building.document (4 * tokens.length + 4) { tokens := tokens }
  return (tree, remaining.anchors)

end Keymap.Yaml
