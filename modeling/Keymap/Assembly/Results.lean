import Keymap.Assembly.Combo
import Keymap.Config.Basic
import Keymap.Distinct
import Keymap.Guide

/-!
# Compiling results

Every element of a result becomes one call of a capability, or a finding that
says why it does not. The steps of a result with more than one step are each
followed by a combo with the spacer, if the routing has one.
-/

namespace Keymap

/-- A row of the result table. -/
structure ResultRow where
  name : String
  combos : Guide.ResultCombos

namespace Assembly

open Config (Capability LayerMode ResultElement Result Routing)
open Guide (Call)

/-- What the elements of results refer to. -/
structure ResultScope where
  capabilities : List Capability
  /-- The names of the settings table. -/
  settings : List String
  routing : Routing
  layerCount : Nat

namespace ResultScope

/-- The capability with a name and its index as a byte; indices that need more
than a byte are rejected elsewhere. -/
def capability? (scope : ResultScope) (name : String) : Option (UInt8 × Capability) :=
  (locateBy (·.name) name 0 scope.capabilities).map fun (index, capability) =>
    (UInt8.ofNat (min index 255), capability)

/-- Call a capability of one argument through the routing. -/
def routed (scope : ResultScope) (symbol name : String) (value : Int) : Except Finding Call :=
  match scope.capability? name with
  | none => .error (.error .routing symbol (.reference (.capability symbol name)))
  | some (index, capability) =>
    match capability.args with
    | [arg] =>
      match Guide.encodeArgument symbol value arg.width.toNat with
      | .ok bytes => .ok ⟨index, bytes⟩
      | .error fault => .error (.error .capabilityArguments symbol (.range fault))
    | args => .error (.error .routing symbol (.shape (.argumentCount symbol name 1 args.length)))

/-- The name of the spacer, also where the routing has none. -/
def spacerName (scope : ResultScope) : String := scope.routing.spacer.getD "spacer"

/-- Call the spacer, all its arguments zero. -/
def spacer (scope : ResultScope) (symbol : String) : Except Finding Call :=
  match scope.capability? scope.spacerName with
  | some (index, capability) => .ok ⟨index, List.replicate capability.argBytes 0⟩
  | none => .error (.error .routing symbol (.reference (.capability symbol scope.spacerName)))

/-- The bytes of the values for the arguments of a capability. -/
def encodeValues (symbol : String) (values : List Int64) (args : List Config.Argument) :
    Except RangeFault (List UInt8) := do
  let parts ← (values.zip args).mapM fun (value, arg) =>
    Guide.encodeArgument symbol value.toInt arg.width.toNat
  return parts.flatten

/-- Call a capability by its name. -/
def called (scope : ResultScope) (symbol name : String) (values : List Int64) :
    Except Finding Call :=
  let finding (fault : Fault) : Finding := .error .capabilityArguments symbol fault
  match scope.capability? name with
  | none => .error (finding (.reference (.capability symbol name)))
  | some (index, capability) =>
    if values.length ≠ capability.args.length then
      .error (finding (.shape
        (.argumentCount symbol name capability.args.length values.length)))
    else
      match encodeValues symbol values capability.args with
      | .ok bytes => .ok ⟨index, bytes⟩
      | .error fault => .error (finding (.range fault))

/-- The capability that serves a layer mode. -/
def layerCapability (routing : Routing) : LayerMode → String
  | .shift => routing.layerShift
  | .latch => routing.layerLatch
  | .lock => routing.layerLock

/-- The call of an element. -/
def call (scope : ResultScope) (symbol : String) : ResultElement → Except Finding Call
  | .capability name args => scope.called symbol name args
  | .usb code => scope.routed symbol scope.routing.usb code.toNat
  | .consumer code => scope.routed symbol scope.routing.consumer code.toNat
  | .system code => scope.routed symbol scope.routing.system code.toNat
  | .layer mode layer =>
    if layer.toNat < scope.layerCount then
      scope.routed symbol (layerCapability scope.routing mode) layer.toNat
    else
      .error (.error .layerBindings symbol
        (.reference (.layer symbol layer.toNat scope.layerCount)))
  | .animation settings =>
    match scope.settings.idxOf? settings with
    | some index => scope.routed symbol scope.routing.animation index
    | none =>
      .error (.error .animationReferences symbol
        (.reference (.animationSettings symbol settings)))
  | .none => scope.spacer symbol

/-- A result whose steps are followed by the spacer. -/
def isSpaced (scope : ResultScope) (result : Result) : Bool :=
  decide (1 < result.steps.length) && scope.routing.spacer.isSome

/-- The combos that follow a step. -/
def spacerCombos (scope : ResultScope) (result : Result) : Guide.ResultCombos :=
  if scope.isSpaced result then
    match scope.spacer result.name with
    | .ok call => [[call]]
    | .error _ => []
  else []

/-- The combos of a result. -/
def combos (scope : ResultScope) (result : Result) : Guide.ResultCombos :=
  result.steps.flatMap fun combo =>
    combo.filterMap (fun element => (scope.call result.name element).toOption) ::
      scope.spacerCombos result

/-- The findings on the elements of a step and on the spacer behind it. -/
def stepFindings (scope : ResultScope) (result : Result) (combo : List ResultElement) :
    List Finding :=
  combo.filterMap (fun element => errorOf (scope.call result.name element)) ++
    if scope.isSpaced result then (errorOf (scope.spacer result.name)).toList else []

/-- The findings on a result. -/
def findings (scope : ResultScope) (result : Result) : List Finding :=
  sequenceFindings result.name (scope.stepFindings result) result.steps

/-- The row of a result. -/
def row (scope : ResultScope) (result : Result) : ResultRow :=
  ⟨result.name, scope.combos result⟩

end ResultScope

end Assembly

end Keymap
