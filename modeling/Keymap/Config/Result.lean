import Keymap.Schema.Tagged

/-!
# Results

A result is what a keyboard does: a sequence of steps, each of which does
several things at once. An element calls a capability, either by its name or
through the routing.
-/

namespace Keymap.Config

/-- How a result changes the state of a layer. -/
inductive LayerMode where
  | shift
  | latch
  | lock
  deriving DecidableEq

/-- One thing that a result does. -/
inductive ResultElement where
  /-- Call a capability with one value for each of its arguments. -/
  | capability (name : String) (args : List Int64)
  | usb (code : UInt32)
  | consumer (code : UInt32)
  | system (code : UInt32)
  | layer (mode : LayerMode) (layer : UInt32)
  /-- Start an animation, with settings of their own name or with those of the animation. -/
  | animation (settings : String)
  | none

/-- A named sequence of steps. -/
structure Result where
  name : String
  steps : List (List ResultElement)

/-- The names of the layer modes. -/
def LayerMode.names : List (String × LayerMode) :=
  [("shift", .shift), ("latch", .latch), ("lock", .lock)]

namespace ResultElement

/-- The fields of an element that calls a capability. -/
def capabilityFields : Fields [String, List Int64] :=
  .require "name" .string <| .optional "args" (.list .int64) [] .nil

/-- The field of an element that sends a code. -/
def codeFields : Fields [UInt32] := .require "code" .uint32 .nil

/-- The fields of an element that changes a layer. -/
def layerFields : Fields [LayerMode, UInt32] :=
  .require "mode" (.settledNamed LayerMode.names) <| .require "layer" .uint32 .nil

/-- The field of an element that starts an animation. -/
def animationFields : Fields [String] := .require "settings" .string .nil

/-- The forms of an element. -/
def forms : List (Form ResultElement) :=
  let type := "ResultElement"
  [.ofFields "capability" type "Capability" capabilityFields
      fun (name, args, ()) => .capability name args,
   .ofFields "usb" type "Usb" codeFields fun (code, ()) => .usb code,
   .ofFields "consumer" type "Consumer" codeFields fun (code, ()) => .consumer code,
   .ofFields "system" type "System" codeFields fun (code, ()) => .system code,
   .ofFields "layer" type "Layer" layerFields fun (mode, n, ()) => .layer mode n,
   .ofFields "animation" type "Animation" animationFields
      fun (settings, ()) => .animation settings,
   .ofFields "none" type "None" .nil fun () => .none]

/-- The JSON value of an element. -/
def encode : ResultElement → Json
  | .capability name args => capabilityFields.withTag "kind" "capability" (name, args, ())
  | .usb code => codeFields.withTag "kind" "usb" (code, ())
  | .consumer code => codeFields.withTag "kind" "consumer" (code, ())
  | .system code => codeFields.withTag "kind" "system" (code, ())
  | .layer mode n => layerFields.withTag "kind" "layer" (mode, n, ())
  | .animation settings => animationFields.withTag "kind" "animation" (settings, ())
  | .none => Fields.nil.withTag "kind" "none" ()

/-- The codec of an element. -/
def codec : Codec ResultElement := .tagged "ResultElement" "kind" forms encode

end ResultElement

/-- The codec of a result. -/
def Result.codec : Codec Result :=
  .record "ResultMacroDef"
    (.require "name" .string <| .require "steps" (.list (.list ResultElement.codec)) .nil)
    (fun (name, steps, ()) => ⟨name, steps⟩)
    (fun r => (r.name, r.steps, ()))

end Keymap.Config
