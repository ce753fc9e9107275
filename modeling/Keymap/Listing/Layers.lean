import Keymap.Assembly.Build
import Keymap.Listing.Layout

/-!
# Listings of layers

The default layer has a trigger list for every scan code up to the greatest
one. A partial layer has one for every scan code from its first to its last,
numbered from zero, and the layer index says where they begin.
-/

namespace Keymap.Listing

/-- The greatest scan code. -/
def maxScanCode (assembly : Assembly) : String := Text.shortHex assembly.config.maxScanCode.toNat

/-- The declaration of a trigger list: its length and its triggers. -/
def triggerList (layer : String) (index : Nat) (triggers : List Nat) : String :=
  inlined ("Define_TL( " ++ layer ++ ", " ++ Text.hex index ++ " )")
    (toString triggers.length :: triggers.map toString)

/-- The declarations of trigger lists that follow one another. -/
def triggerLists (layer : String) (lists : List (List Nat)) : String :=
  lines (lists.zipIdx.map fun (triggers, i) => triggerList layer i triggers)

/-- The table of trigger lists that follow one another. -/
def scanMap (layer : String) (lists : List (List Nat)) : String :=
  table ("const nat_ptr_t *" ++ layer ++ "_scanMap[]") <|
    (List.range lists.length).map fun i => row (layer ++ "_tl_" ++ Text.hex i ++ ",")

/-- The trigger lists of the default layer. -/
def defaultLists (assembly : Assembly) : List (List Nat) :=
  match assembly.layers with
  | [] => []
  | layer :: _ => layer.map.dense 0 assembly.config.maxScanCode.toNat

/-- The declarations of the trigger lists of the default layer. -/
def defaultTriggerLists (assembly : Assembly) : String :=
  triggerLists "default" (defaultLists assembly)

/-- The table of the trigger lists of the default layer. -/
def defaultScanMap (assembly : Assembly) : String := scanMap "default" (defaultLists assembly)

/-- The name of a partial layer in listings. -/
def layerName (n : Nat) : String := "layer" ++ toString n

/-- A section for every partial layer. -/
def partialSections (assembly : Assembly) (text : Nat → LayerRow → String) : String :=
  sections ((assembly.layers.zipIdx.drop 1).map fun (layer, n) =>
    "// Partial Layer " ++ toString n ++ "\n" ++ text n layer)

/-- The declarations of the trigger lists of the partial layers. -/
def partialTriggerLists (assembly : Assembly) : String :=
  partialSections assembly fun n layer => triggerLists (layerName n) layer.map.span.2

/-- The tables of the trigger lists of the partial layers. -/
def partialScanMaps (assembly : Assembly) : String :=
  partialSections assembly fun n layer => scanMap (layerName n) layer.map.span.2

/-- A row of the layer index. -/
def layerIndexRow (layer mark label : String) (first : Nat) : String :=
  row ("Layer_IN( " ++ layer ++ "_scanMap, \"" ++ mark ++ ": " ++ label ++ "\", " ++
    Text.hex first ++ " ),")

/-- The layer index. -/
def layerIndex (assembly : Assembly) : String :=
  table "const Layer LayerIndex[]" <|
    assembly.layers.zipIdx.map fun (layer, n) =>
      if n = 0 then layerIndexRow "default" "D" layer.label 0
      else layerIndexRow (layerName n) (toString n) layer.label layer.map.span.1

/-- The states in which the layers begin. -/
def layerStates (assembly : Assembly) : String :=
  inlined "LayerStateType LayerState[ LayerNum ]" <|
    (List.range assembly.layers.length).map fun n =>
      if n = 0 then "LayerStateType_Lock" else "LayerStateType_Off"

/-- The offsets of the boards. -/
def offsetTable (assembly : Assembly) : String :=
  if assembly.offsets.isEmpty then ""
  else
    table "const uint8_t InterconnectOffsetList[]" <|
      assembly.offsets.map fun offset => row (Text.hex offset ++ ",")

/-- The number of boards. -/
def boardCount (assembly : Assembly) : String :=
  definition "InterconnectNodeMax" (Text.shortHex assembly.offsets.length)

/-- A numbered row. -/
def numberedRow (n value : Nat) : String :=
  row ("/*" ++ toString n ++ "*/ " ++ toString value ++ ",")

/-- The greatest parameters of the rotations. -/
def rotationTable (assembly : Assembly) : String :=
  table "const uint8_t Rotation_MaxParameter[]" <|
    assembly.rotation.maxima.zipIdx.map fun (max, uid) => numberedRow uid max.toNat

end Keymap.Listing
