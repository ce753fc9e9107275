import Keymap.Schema.Record

/-!
# Capabilities

A capability is a function of the firmware that results call. It declares how
many bytes each of its arguments has. The routing names the capabilities that
serve the results which do not name one themselves.
-/

namespace Keymap.Config

/-- An argument of a capability, with its width in bytes. -/
structure Argument where
  name : String
  width : UInt8
  deriving DecidableEq

/-- Whether the firmware may run a capability from any context. -/
inductive Feature where
  | safe
  | none
  deriving DecidableEq

/-- A function of the firmware under the name that results use. -/
structure Capability where
  name : String
  function : String
  args : List Argument
  feature : Feature

/-- The bytes that the arguments of a capability take together. -/
def Capability.argBytes (capability : Capability) : Nat :=
  (capability.args.map fun arg => arg.width.toNat).sum

/-- The names of the capabilities that serve each kind of result, and of the
one that separates the steps of a result. -/
structure Routing where
  usb : String := "usbKeyOut"
  consumer : String := "consCtrlOut"
  system : String := "sysCtrlOut"
  layerShift : String := "layerShift"
  layerLatch : String := "layerLatch"
  layerLock : String := "layerLock"
  animation : String := "animationIndex"
  spacer : Option String := some "usbKeyOut"

/-- The codec of an argument. -/
def Argument.codec : Codec Argument :=
  .record "CapabilityArg"
    (.require "name" .string <| .require "width" .uint8 .nil)
    (fun (name, width, ()) => ⟨name, width⟩)
    (fun arg => (arg.name, arg.width, ()))

/-- The names of the features. -/
def Feature.names : List (String × Feature) := [("safe", .safe), ("none", .none)]

/-- The codec of a capability. -/
def Capability.codec : Codec Capability :=
  .record "CapabilityDef"
    (.require "name" .string <| .require "function" .string <|
      .optional "args" (.list Argument.codec) [] <|
      .optional "feature" (.named Feature.names) Feature.none .nil)
    (fun (name, function, args, feature, ()) => ⟨name, function, args, feature⟩)
    (fun c => (c.name, c.function, c.args, c.feature, ()))

/-- The codec of the routing. -/
def Routing.codec : Codec Routing :=
  let default : Routing := {}
  .record "Routing"
    (.optional "usb" .string default.usb <|
      .optional "consumer" .string default.consumer <|
      .optional "system" .string default.system <|
      .optional "layer_shift" .string default.layerShift <|
      .optional "layer_latch" .string default.layerLatch <|
      .optional "layer_lock" .string default.layerLock <|
      .optional "animation" .string default.animation <|
      .optional "spacer" (.option .string) default.spacer .nil)
    (fun (usb, consumer, system, shift, latch, lock, animation, spacer, ()) =>
      ⟨usb, consumer, system, shift, latch, lock, animation, spacer⟩)
    (fun r => (r.usb, r.consumer, r.system, r.layerShift, r.layerLatch, r.layerLock,
      r.animation, r.spacer, ()))

end Keymap.Config
