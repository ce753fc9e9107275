import Keymap.Assembly.Combo
import Keymap.Config.Basic
import Keymap.Guide
import Keymap.Keys

/-!
# Compiling triggers

Every element of a trigger becomes one condition of its guide, or a finding
that says why it does not. Triggers whose guides have equal bytes share one
guide; the guides are numbered in the order of their first use. The uid of an
element is also the number of the list in which a layer files the trigger.
-/

namespace Keymap

/-- A guide with the triggers that share it. -/
structure SharedGuide where
  combos : Guide.TriggerCombos
  users : List String

/-- A row of the trigger table. -/
structure TriggerRow where
  name : String
  guide : Nat
  result : Option Nat
  resultName : String

namespace Assembly

open Config (Trigger TriggerElement)
open Guide (Condition State)

/-- What the elements of triggers refer to. -/
structure TriggerScope where
  offsets : List Nat
  layerCount : Nat
  animations : List String

namespace TriggerScope

/-- The finding on a uid without a type. -/
def encoded (symbol : String) (state : State) (type : Except RangeFault (UInt8 × UInt8)) :
    Except Finding Condition :=
  match type with
  | .ok (type, uid) => .ok ⟨type, state, uid⟩
  | .error fault => .error (.error .triggerEncoding symbol (.range fault))

/-- The condition of an element. -/
def condition (scope : TriggerScope) (symbol : String) :
    TriggerElement → Except Finding Condition
  | .switch scanCode board state =>
    match boardOffset scope.offsets board.toNat with
    | some offset =>
      encoded symbol (.schedule state)
        (Guide.banked Guide.switchType Guide.bankCount symbol (scanCode.toNat + offset))
    | none =>
      .error (.error .interconnect symbol
        (.range (.board symbol board.toNat scope.offsets.length)))
  | .indicator code state =>
    encoded symbol (.schedule state) (Guide.banked Guide.indicatorType 1 symbol code.toNat)
  | .layer layer mode state =>
    if layer.toNat < scope.layerCount then
      encoded symbol (.layer state mode)
        (Guide.banked Guide.layerType Guide.bankCount symbol layer.toNat)
    else
      .error (.error .layerBindings symbol
        (.reference (.layer symbol layer.toNat scope.layerCount)))
  | .animation animation event =>
    match scope.animations.idxOf? animation with
    | some index =>
      encoded symbol (.animation event)
        (Guide.banked Guide.animationType Guide.bankCount symbol index)
    | none =>
      .error (.error .animationReferences symbol (.reference (.animation symbol animation)))
  | .analog code threshold =>
    encoded symbol (.raw threshold)
      (Guide.banked Guide.analogType Guide.bankCount symbol code.toNat)
  | .generic code uid param =>
    encoded symbol (.raw param) (Guide.banked code 1 symbol uid.toNat)

/-- The combos of a trigger. -/
def combos (scope : TriggerScope) (trigger : Trigger) : Guide.TriggerCombos :=
  trigger.sequence.map fun combo =>
    combo.filterMap fun element => (scope.condition trigger.name element).toOption

/-- The findings on a trigger. -/
def findings (scope : TriggerScope) (trigger : Trigger) : List Finding :=
  sequenceFindings trigger.name
    (fun combo => combo.filterMap fun element => errorOf (scope.condition trigger.name element))
    trigger.sequence

/-- The list in which a layer files a trigger for an element; an analog key and
an element that refers to nothing have none. -/
def listUid (scope : TriggerScope) : TriggerElement → Option Nat
  | .switch scanCode board _ =>
    (boardOffset scope.offsets board.toNat).map fun offset => scanCode.toNat + offset
  | .indicator code _ => some code.toNat
  | .layer layer _ _ => if layer.toNat < scope.layerCount then some layer.toNat else none
  | .animation animation _ => scope.animations.idxOf? animation
  | .generic _ uid _ => some uid.toNat
  | .analog _ _ => none

end TriggerScope

/-- The guide with equal bytes, if there is one. -/
def sharedIndex? (guides : List SharedGuide) (combos : Guide.TriggerCombos) : Option Nat :=
  let bytes := Guide.triggerBytes combos
  guides.findIdx? fun guide => decide (Guide.triggerBytes guide.combos = bytes)

/-- Add a user to its guide, which is new if there is none with equal bytes. -/
def share (guides : List SharedGuide) (name : String) (combos : Guide.TriggerCombos) :
    List SharedGuide × Nat :=
  match sharedIndex? guides combos with
  | some i => (guides.modify i fun guide => { guide with users := guide.users ++ [name] }, i)
  | none => (guides ++ [⟨combos, [name]⟩], guides.length)

/-- The guides and the trigger table, over the names of the results. -/
def shareAll (scope : TriggerScope) (results : List String) :
    (guides : List SharedGuide) → List Trigger → List SharedGuide × List TriggerRow
  | guides, [] => (guides, [])
  | guides, trigger :: rest =>
    let (guides, i) := share guides trigger.name (scope.combos trigger)
    let (guides, rows) := shareAll scope results guides rest
    (guides, ⟨trigger.name, i, results.idxOf? trigger.result, trigger.result⟩ :: rows)

end Assembly

end Keymap
