import Keymap.Assembly.Triggers
import Keymap.Distinct
import Keymap.LayerTables

/-!
# Assembling layers

A layer files every trigger that it binds in the lists of the trigger's
elements. The rotations of bound triggers are collected over all layers.
-/

namespace Keymap

/-- A row of the layer table. -/
structure LayerRow where
  name : String
  /-- The name that the firmware shows. -/
  label : String
  map : ScanMap

namespace Assembly

open Config (Layer Trigger TriggerElement)

/-- Files that describe a keyboard and never name a layer. -/
def unnamedSources : List String := ["capabilities.kll", "scancode_map.kll"]

/-- The files of a layer, or its name if they do not name it. -/
def layerLabel (layer : Layer) : String :=
  let files := layer.sources.filter fun file => decide (file ∉ unnamedSources)
  if files.isEmpty then layer.name else String.intercalate " + " files

/-- The triggers that a layer binds, with their indices. -/
def bound (triggers : List Trigger) (layer : Layer) : List (Nat × Trigger) :=
  layer.triggers.filterMap fun name => locateBy (·.name) name 0 triggers

/-- The elements of a trigger. -/
def elements (trigger : Trigger) : List TriggerElement := trigger.sequence.flatten

/-- File a trigger in the lists of its elements. -/
def file (scope : TriggerScope) (map : ScanMap) (binding : Nat × Trigger) : ScanMap :=
  ((elements binding.2).filterMap scope.listUid).foldl
    (fun map uid => map.insert uid binding.1) map

/-- The row of a layer. -/
def layerRow (scope : TriggerScope) (triggers : List Trigger) (layer : Layer) : LayerRow :=
  ⟨layer.name, layerLabel layer, (bound triggers layer).foldl (file scope) .empty⟩

/-- The findings on the bindings of a layer. -/
def layerFindings (triggers : List Trigger) (layer : Layer) : List Finding :=
  (layer.triggers.filter fun name => (locateBy (·.name) name 0 triggers).isNone).map fun name =>
    .error .layerBindings layer.name (.reference (.trigger layer.name name))

/-- The uid and parameter of an element that is a rotation. -/
def rotation? : TriggerElement → Option (UInt8 × UInt8)
  | .generic code uid param =>
    if code = Guide.rotationType ∧ uid.toNat < 256 then some (UInt8.ofNat uid.toNat, param)
    else none
  | _ => none

/-- The rotations of the triggers that layers bind. -/
def rotations (triggers : List Trigger) (layers : List Layer) : List (UInt8 × UInt8) :=
  layers.flatMap fun layer =>
    (bound triggers layer).flatMap fun binding => (elements binding.2).filterMap rotation?

/-- The rotation table. -/
def rotationTable (triggers : List Trigger) (layers : List Layer) : RotationTable :=
  (rotations triggers layers).foldl (fun table r => table.record r.1 r.2) .empty

end Assembly

end Keymap
