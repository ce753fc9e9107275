import Keymap.Animation.Frame
import Keymap.Guide
import Keymap.Text.Numerals

/-!
# Names of constants

The firmware has names for the bytes of guides and frames, and the listings use
these names. A byte without a name is written in base sixteen.
-/

namespace Keymap.Listing

open Config (Schedule LayerMode ChangeOp)
open Animation (AddressMode)

/-- A byte in base sixteen. -/
def byte (b : UInt8) : String := Text.hex b.toNat

/-- A class of trigger types that follow one another. -/
structure TypeClass where
  word : String
  first : UInt8
  banks : Nat

namespace TypeClass

/-- The number of a type in its class, counted from zero. -/
def bank? (family : TypeClass) (type : UInt8) : Option Nat :=
  if family.first ≤ type ∧ type.toNat < family.first.toNat + family.banks then
    some (type.toNat - family.first.toNat)
  else none

/-- The name of a type, if it belongs to the class. -/
def name? (family : TypeClass) (type : UInt8) : Option String :=
  (family.bank? type).map fun bank =>
    "TriggerType_" ++ family.word ++ toString (bank + 1)

end TypeClass

/-- The classes of trigger types. -/
def typeClasses : List TypeClass :=
  [⟨"Switch", Guide.switchType, Guide.bankCount⟩, ⟨"LED", Guide.indicatorType, 1⟩,
   ⟨"Analog", Guide.analogType, Guide.bankCount⟩, ⟨"Layer", Guide.layerType, Guide.bankCount⟩,
   ⟨"Animation", Guide.animationType, Guide.bankCount⟩, ⟨"Sleep", 0x11, 1⟩,
   ⟨"Resume", 0x12, 1⟩, ⟨"Inactive", 0x13, 1⟩, ⟨"Active", 0x14, 1⟩,
   ⟨"Rotation", Guide.rotationType, 1⟩]

/-- The type for debugging, which has no number. -/
def debugType : UInt8 := 0xFF

/-- The name of a trigger type. -/
def typeName (type : UInt8) : String :=
  if type = debugType then "TriggerType_Debug"
  else (typeClasses.findSome? (·.name? type)).getD (byte type)

/-- The name of a schedule state. -/
def scheduleName : Schedule → String
  | .off => "ScheduleType_O"
  | .press => "ScheduleType_P"
  | .hold => "ScheduleType_H"
  | .release => "ScheduleType_R"
  | .uniquePress => "ScheduleType_UP"
  | .uniqueRelease => "ScheduleType_UR"

/-- The name of the flag of a layer mode. -/
def modeName : LayerMode → String
  | .shift => "ScheduleType_Shift"
  | .latch => "ScheduleType_Latch"
  | .lock => "ScheduleType_Lock"

/-- The flags of a state, which are joined by a bitwise or. -/
def stateFlags : Guide.State → List String
  | .schedule state => [scheduleName state]
  | .layer state none => [scheduleName state]
  | .layer state (some mode) => [scheduleName state, modeName mode]
  | .animation .done => ["ScheduleType_Done"]
  | .animation .repeat => ["ScheduleType_Repeat"]
  | .animation .doneOrRepeat => ["ScheduleType_Repeat", "ScheduleType_Done"]
  | .raw b => [byte b]

/-- The text of a state. -/
def stateText (state : Guide.State) : String := String.intercalate " | " (stateFlags state)

/-- The name of an address mode. -/
def addressName : AddressMode → String
  | .stop => "PixelAddressType_End"
  | .index => "PixelAddressType_Index"
  | .rect => "PixelAddressType_Rect"
  | .columnFill => "PixelAddressType_ColumnFill"
  | .rowFill => "PixelAddressType_RowFill"
  | .scanCode => "PixelAddressType_ScanCode"
  | .relativeIndex => "PixelAddressType_RelativeIndex"
  | .relativeRect => "PixelAddressType_RelativeRect"
  | .relativeColumnFill => "PixelAddressType_RelativeColumnFill"
  | .relativeRowFill => "PixelAddressType_RelativeRowFill"

/-- The name of a change of pixels. -/
def changeName : ChangeOp → String
  | .set => "PixelChange_Set"
  | .add => "PixelChange_Add"
  | .subtract => "PixelChange_Subtract"
  | .noOp => "PixelChange_NoOp"
  | .interpLinear => "PixelChange_InterpolateLinear"
  | .interpEaseIn => "PixelChange_InterpolateEaseIn"
  | .interpEaseOut => "PixelChange_InterpolateEaseOut"

example : typeName 0x0A = "TriggerType_Layer2" := by decide +kernel
example : typeName 0x15 = "TriggerType_Rotation1" := by decide +kernel
example : typeName 0x42 = "0x42" := by decide +kernel

end Keymap.Listing
