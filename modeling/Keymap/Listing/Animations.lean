import Keymap.Assembly.Build
import Keymap.Listing.Layout
import Keymap.Listing.Names

/-!
# Listings of animations

Every frame is an array of bytes, and every animation an array of frames. The
settings table lists the rows with default settings before the others.
-/

namespace Keymap.Listing

open Animation (Frame FrameRecord Compiled)
open Config (FrameFunction PixelFunction ReplaceMode PlayState)

/-- The tokens of a record. -/
def recordTokens (record : FrameRecord) : List String :=
  addressName record.mode :: record.address.map byte ++
    changeName record.op :: record.payload.map byte

/-- The declaration of a frame. -/
def frameText (animation : String) (frame : Frame) : String :=
  let head := "const uint8_t " ++ Animation.frameSymbol animation frame.number ++ "[]"
  if frame.records.isEmpty then inlined head [addressName .stop]
  else
    "// " ++ animation ++ " frame " ++ toString frame.number ++ "\n" ++
      table head ((frame.records.map fun record => row (tokens (recordTokens record) ++ ",")) ++
        [row (addressName .stop)])

/-- The name of the array of frames of an animation. -/
def framesName (animation : String) : String := animation ++ "_frames"

/-- The array of frames of an animation. -/
def frameSet (animation : Compiled) : String :=
  "//// " ++ animation.name ++ " Animation Frame Set ////\n" ++
    table ("const uint8_t *" ++ framesName animation.name ++ "[]")
      ((animation.frames.map fun frame =>
        row (Animation.frameSymbol animation.name frame.number ++ ",")) ++ [row "0"])

/-- The frames of all animations. -/
def frames (assembly : Assembly) : String :=
  sections (assembly.animations.flatMap fun animation =>
    animation.frames.map (frameText animation.name) ++ [frameSet animation])

/-- The table of animations. -/
def animationTable (assembly : Assembly) : String :=
  table "const uint8_t **Pixel_Animations[]"
    ((assembly.animations.zipIdx.map fun (animation, i) =>
      row ("/*" ++ toString i ++ "*/ " ++ framesName animation.name ++ ",")) ++ [row "0"])

/-- The name of the index of an animation. -/
def animationIndexName (animation : String) : String := "Animation__" ++ animation

/-- The trigger of a settings row; without one a number tells default settings from others. -/
def settingsTrigger (settings : SettingsRow) : String :=
  match settings.trigger with
  | some trigger => "&TriggerMacroList[" ++ toString trigger ++ "]"
  | none => if settings.isInitial then "1" else "0"

/-- The number of a function between frames. -/
def frameFunctionCode : FrameFunction → Nat
  | .off => 0

/-- The number of a function between pixels. -/
def pixelFunctionCode : PixelFunction → Nat
  | .off => 0
  | .interp => 1

/-- The number of a replace mode. -/
def replaceCode : ReplaceMode → Nat
  | .stack => 0
  | .basic => 1
  | .all => 2
  | .state => 3

/-- The name of a play state. -/
def playStateName : PlayState → String
  | .start => "AnimationPlayState_Start"
  | .pause => "AnimationPlayState_Pause"
  | .stop => "AnimationPlayState_Stop"

/-- The name of the option on frames. -/
def stretchName (stretch : Bool) : String :=
  if stretch then "PixelFrameOption_FrameStretch" else "PixelFrameOption_None"

/-- The tokens of a settings row; an animation that plays for ever has no number of loops. -/
def settingsTokens (settings : SettingsRow) : List String :=
  let playback := settings.playback
  ["(TriggerMacro*)" ++ settingsTrigger settings,
   animationIndexName settings.animationName, toString playback.frame.toNat, "0",
   toString (if playback.loopForever then 0 else playback.loops.toNat),
   toString playback.frameDelay.toNat, stretchName playback.frameStretch,
   toString (frameFunctionCode playback.frameFunction),
   toString (pixelFunctionCode playback.pixelFunction),
   toString (replaceCode playback.replace), playStateName playback.state]

/-- The line of a settings row. -/
def settingsLine (settings : SettingsRow) (index : Nat) : String :=
  "\n\t/*" ++ toString index ++ " " ++ settings.name ++ "*/ \x7b " ++
    tokens (settingsTokens settings) ++ " \x7d,"

/-- The lines of some settings rows. -/
def settingsLines (rows : List (SettingsRow × Nat)) : String :=
  String.join (rows.map fun (settings, i) => settingsLine settings i)

/-- The settings table. -/
def settingsTable (assembly : Assembly) : String :=
  let rows := assembly.settings.zipIdx
  "const AnimationStackElement Pixel_AnimationSettings[] = \x7b" ++
    settingsLines (rows.filter (·.1.isInitial)) ++ "\n\n\t/* Additional Settings */" ++
    settingsLines (rows.filter (!·.1.isInitial)) ++ "\n\x7d;"

/-- The definitions of the indices of animations; none without a pixel section. -/
def animationIndices (assembly : Assembly) : String :=
  if assembly.pixels.isNone then ""
  else
    String.join (assembly.animations.zipIdx.map fun (animation, i) =>
      "\n" ++ definition (animationIndexName animation.name) (toString i))

end Keymap.Listing
