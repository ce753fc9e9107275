import Keymap.Config.Result

/-!
# Triggers

A trigger is what a keyboard waits for: a sequence of steps, each of which
waits for several things at once, and the result that it fires.
-/

namespace Keymap.Config

/-- The state of a key or layer that a trigger waits for. -/
inductive Schedule where
  | press
  | hold
  | release
  | off
  | uniquePress
  | uniqueRelease
  deriving DecidableEq

/-- The event of an animation that a trigger waits for. -/
inductive AnimationEvent where
  | done
  | repeat
  | doneOrRepeat
  deriving DecidableEq

/-- One thing that a trigger waits for. -/
inductive TriggerElement where
  /-- A key; its scan code counts from the first code of its board. -/
  | switch (scanCode : UInt16) (board : UInt8) (state : Schedule)
  | indicator (code : UInt16) (state : Schedule)
  | layer (layer : UInt16) (mode : Option LayerMode) (state : Schedule)
  | animation (animation : String) (event : AnimationEvent)
  | analog (code : UInt16) (threshold : UInt8)
  /-- A trigger type by its own code, such as rotation. -/
  | generic (code : UInt8) (uid : UInt16) (param : UInt8)

/-- A named sequence of steps with the result that it fires. -/
structure Trigger where
  name : String
  sequence : List (List TriggerElement)
  result : String

/-- The names of the schedule states. -/
def Schedule.names : List (String × Schedule) :=
  [("press", .press), ("hold", .hold), ("release", .release), ("off", .off),
   ("unique_press", .uniquePress), ("unique_release", .uniqueRelease)]

/-- The names of the animation events. -/
def AnimationEvent.names : List (String × AnimationEvent) :=
  [("done", .done), ("repeat", .repeat), ("done_or_repeat", .doneOrRepeat)]

namespace TriggerElement

/-- The state that an element waits for unless it says otherwise. -/
def stateField : Fields [Schedule] :=
  .optional "state" (.settledNamed Schedule.names) Schedule.press .nil

/-- The fields of an element that waits for a key. -/
def switchFields : Fields [UInt16, UInt8, Schedule] :=
  .require "scan_code" .uint16 <| .optional "board" .uint8 0 stateField

/-- The fields of an element that waits for an indicator. -/
def indicatorFields : Fields [UInt16, Schedule] := .require "code" .uint16 stateField

/-- The fields of an element that waits for a layer. -/
def layerFields : Fields [UInt16, Option LayerMode, Schedule] :=
  .require "layer" .uint16 <|
    .optional "mode" (.option (.settledNamed LayerMode.names)) Option.none stateField

/-- The fields of an element that waits for an animation. -/
def animationFields : Fields [String, AnimationEvent] :=
  .require "animation" .string <|
    .optional "event" (.settledNamed AnimationEvent.names) AnimationEvent.doneOrRepeat .nil

/-- The fields of an element that waits for an analog key. -/
def analogFields : Fields [UInt16, UInt8] :=
  .require "code" .uint16 <| .require "threshold" .uint8 .nil

/-- The fields of an element with a type code of its own. -/
def genericFields : Fields [UInt8, UInt16, UInt8] :=
  .require "code" .uint8 <| .require "uid" .uint16 <| .optional "param" .uint8 0 .nil

/-- The forms of an element. -/
def forms : List (Form TriggerElement) :=
  let type := "TriggerElement"
  [.ofFields "switch" type "Switch" switchFields
      fun (scanCode, board, state, ()) => .switch scanCode board state,
   .ofFields "indicator" type "Indicator" indicatorFields
      fun (code, state, ()) => .indicator code state,
   .ofFields "layer" type "Layer" layerFields
      fun (n, mode, state, ()) => .layer n mode state,
   .ofFields "animation" type "Animation" animationFields
      fun (name, event, ()) => .animation name event,
   .ofFields "analog" type "Analog" analogFields
      fun (code, threshold, ()) => .analog code threshold,
   .ofFields "generic" type "Generic" genericFields
      fun (code, uid, param, ()) => .generic code uid param]

/-- The JSON value of an element. -/
def encode : TriggerElement → Json
  | .switch scanCode board state =>
    switchFields.withTag "kind" "switch" (scanCode, board, state, ())
  | .indicator code state => indicatorFields.withTag "kind" "indicator" (code, state, ())
  | .layer n mode state => layerFields.withTag "kind" "layer" (n, mode, state, ())
  | .animation name event => animationFields.withTag "kind" "animation" (name, event, ())
  | .analog code threshold => analogFields.withTag "kind" "analog" (code, threshold, ())
  | .generic code uid param =>
    genericFields.withTag "kind" "generic" (code, uid, param, ())

/-- The codec of an element. -/
def codec : Codec TriggerElement := .tagged "TriggerElement" "kind" forms encode

end TriggerElement

/-- The codec of a trigger. -/
def Trigger.codec : Codec Trigger :=
  .record "TriggerMacroDef"
    (.require "name" .string <|
      .require "sequence" (.list (.list TriggerElement.codec)) <|
      .require "result" .string .nil)
    (fun (name, sequence, result, ()) => ⟨name, sequence, result⟩)
    (fun t => (t.name, t.sequence, t.result, ()))

end Keymap.Config
