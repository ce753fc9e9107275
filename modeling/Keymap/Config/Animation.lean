import Keymap.Schema.Tagged

/-!
# Animations

An animation is a sequence of numbered frames. A frame changes pixels; a record
says which pixels by an address, how by an operation, and with what by its
payload. Settings say how an animation is played.
-/

namespace Keymap.Config

/-- A coordinate of the display: a column or row, or a fraction of the extent. -/
inductive Coordinate where
  | absolute (value : UInt16)
  | fraction (value : Binary64)
  deriving DecidableEq

/-- Which pixels a record changes. -/
inductive Address where
  | index (index : UInt32)
  | scanCode (scanCode : UInt32)
  | rect (column row : Coordinate)
  | columnFill (column : Coordinate) (secondary : UInt16)
  | rowFill (row : Coordinate) (secondary : UInt16)
  | relativeIndex (offset : Int32)
  | relativeRect (column row : Int16)
  | relativeColumnFill (column secondary : Int16)
  | relativeRowFill (row secondary : Int16)
  deriving DecidableEq

/-- How a record changes its pixels. -/
inductive ChangeOp where
  | set
  | add
  | subtract
  | noOp
  | interpLinear
  | interpEaseIn
  | interpEaseOut
  deriving DecidableEq

/-- The change is spread over time. -/
def ChangeOp.isInterpolation : ChangeOp → Bool
  | .interpLinear | .interpEaseIn | .interpEaseOut => true
  | _ => false

/-- A change of pixels. -/
structure PixelRecord where
  address : Address
  op : ChangeOp
  payload : List UInt8
  deriving DecidableEq

/-- A numbered list of changes; the first frame has the number one. -/
structure Frame where
  index : UInt32
  records : List PixelRecord

/-- What is done between the frames of an animation. -/
inductive FrameFunction where
  | off
  deriving DecidableEq

/-- What is done between the pixels of a frame. -/
inductive PixelFunction where
  | off
  | interp
  deriving DecidableEq

/-- Which running animations a new one replaces. -/
inductive ReplaceMode where
  | stack
  | basic
  | all
  | state
  deriving DecidableEq

/-- The state in which an animation begins. -/
inductive PlayState where
  | start
  | pause
  | stop
  deriving DecidableEq

/-- How an animation is played. -/
structure Playback where
  frame : UInt16 := 0
  loops : UInt16 := 0
  loopForever : Bool := false
  frameDelay : UInt16 := 0
  frameStretch : Bool := false
  frameFunction : FrameFunction := .off
  pixelFunction : PixelFunction := .off
  replace : ReplaceMode := .stack
  state : PlayState := .pause
  deriving DecidableEq

/-- A named sequence of frames with the settings it has by default. -/
structure Animation where
  name : String
  settings : Playback
  frames : List Frame

/-- Further settings for an animation, with the trigger that puts them to use. -/
structure AnimationSettings where
  name : String
  animation : String
  trigger : Option String
  modifiers : Playback

/-- The codec of a coordinate: an integer in range is absolute, any other number a fraction. -/
def Coordinate.codec : Codec Coordinate where
  decode node := do
    match Codec.uint16.decode node with
    | .ok n => return .absolute n
    | .error .malformed => throw .malformed
    | .error _ =>
      match Codec.fraction.decode node with
      | .ok x => return .fraction x
      | .error _ => throw (.noForm "Coord")
  encode
    | .absolute n => Codec.uint16.encode n
    | .fraction x => Codec.fraction.encode x

namespace Address

/-- The field of a pixel number. -/
def indexFields : Fields [UInt32] := .require "index" .uint32 .nil

/-- The field of a scan code. -/
def scanCodeFields : Fields [UInt32] := .require "scan_code" .uint32 .nil

/-- The fields of a cell of the display. -/
def rectFields : Fields [Coordinate, Coordinate] :=
  .require "column" Coordinate.codec <| .require "row" Coordinate.codec .nil

/-- The fields of a column or row of the display. -/
def fillFields (name : String) : Fields [Coordinate, UInt16] :=
  .require name Coordinate.codec <| .optional "secondary" .uint16 0 .nil

/-- The field of a distance in pixels. -/
def offsetFields : Fields [Int32] := .require "offset" .int32 .nil

/-- The fields of a distance in columns and rows. -/
def relativeRectFields : Fields [Int16, Int16] :=
  .require "column" .int16 <| .require "row" .int16 .nil

/-- The fields of a distance in columns or in rows. -/
def relativeFillFields (name : String) : Fields [Int16, Int16] :=
  .require name .int16 <| .optional "secondary" .int16 0 .nil

/-- The forms of an address. -/
def forms : List (Form Address) :=
  let type := "Address"
  [.ofFields "index" type "Index" indexFields fun (n, ()) => .index n,
   .ofFields "scan_code" type "ScanCode" scanCodeFields fun (code, ()) => .scanCode code,
   .ofFields "rect" type "Rect" rectFields fun (column, row, ()) => .rect column row,
   .ofFields "column_fill" type "ColumnFill" (fillFields "column")
      fun (column, secondary, ()) => .columnFill column secondary,
   .ofFields "row_fill" type "RowFill" (fillFields "row")
      fun (row, secondary, ()) => .rowFill row secondary,
   .ofFields "relative_index" type "RelativeIndex" offsetFields
      fun (offset, ()) => .relativeIndex offset,
   .ofFields "relative_rect" type "RelativeRect" relativeRectFields
      fun (column, row, ()) => .relativeRect column row,
   .ofFields "relative_column_fill" type "RelativeColumnFill" (relativeFillFields "column")
      fun (column, secondary, ()) => .relativeColumnFill column secondary,
   .ofFields "relative_row_fill" type "RelativeRowFill" (relativeFillFields "row")
      fun (row, secondary, ()) => .relativeRowFill row secondary]

/-- The JSON value of an address. -/
def encode : Address → Json
  | .index n => indexFields.withTag "mode" "index" (n, ())
  | .scanCode code => scanCodeFields.withTag "mode" "scan_code" (code, ())
  | .rect column row => rectFields.withTag "mode" "rect" (column, row, ())
  | .columnFill column secondary =>
    (fillFields "column").withTag "mode" "column_fill" (column, secondary, ())
  | .rowFill row secondary => (fillFields "row").withTag "mode" "row_fill" (row, secondary, ())
  | .relativeIndex offset => offsetFields.withTag "mode" "relative_index" (offset, ())
  | .relativeRect column row =>
    relativeRectFields.withTag "mode" "relative_rect" (column, row, ())
  | .relativeColumnFill column secondary =>
    (relativeFillFields "column").withTag "mode" "relative_column_fill" (column, secondary, ())
  | .relativeRowFill row secondary =>
    (relativeFillFields "row").withTag "mode" "relative_row_fill" (row, secondary, ())

/-- The codec of an address. -/
def codec : Codec Address := .tagged "Address" "mode" forms encode

end Address

/-- The names of the changes. -/
def ChangeOp.names : List (String × ChangeOp) :=
  [("set", .set), ("add", .add), ("subtract", .subtract), ("no_op", .noOp),
   ("interp_linear", .interpLinear), ("interp_ease_in", .interpEaseIn),
   ("interp_ease_out", .interpEaseOut)]

/-- The codec of a change of pixels. -/
def PixelRecord.codec : Codec PixelRecord :=
  .record "PixelRecord"
    (.require "address" Address.codec <| .require "op" (.named ChangeOp.names) <|
      .optional "payload" (.list .uint8) [] .nil)
    (fun (address, op, payload, ()) => ⟨address, op, payload⟩)
    (fun r => (r.address, r.op, r.payload, ()))

/-- The codec of a frame. -/
def Frame.codec : Codec Frame :=
  .record "FrameDef"
    (.require "index" .uint32 <| .optional "records" (.list PixelRecord.codec) [] .nil)
    (fun (index, records, ()) => ⟨index, records⟩)
    (fun f => (f.index, f.records, ()))

/-- The names of the functions between frames. -/
def FrameFunction.names : List (String × FrameFunction) := [("off", .off)]

/-- The names of the functions between pixels. -/
def PixelFunction.names : List (String × PixelFunction) := [("off", .off), ("interp", .interp)]

/-- The names of the replace modes. -/
def ReplaceMode.names : List (String × ReplaceMode) :=
  [("stack", .stack), ("basic", .basic), ("all", .all), ("state", .state)]

/-- The names of the play states. -/
def PlayState.names : List (String × PlayState) :=
  [("start", .start), ("pause", .pause), ("stop", .stop)]

/-- The codec of playback settings. -/
def Playback.codec : Codec Playback :=
  .record "AnimationModifiers"
    (.optional "frame" .uint16 0 <| .optional "loops" .uint16 0 <|
      .optional "loop_forever" .bool false <| .optional "framedelay" .uint16 0 <|
      .optional "framestretch" .bool false <|
      .optional "ffunc" (.named FrameFunction.names) FrameFunction.off <|
      .optional "pfunc" (.named PixelFunction.names) PixelFunction.off <|
      .optional "replace" (.named ReplaceMode.names) ReplaceMode.stack <|
      .optional "state" (.named PlayState.names) PlayState.pause .nil)
    (fun (frame, loops, forever, delay, stretch, ffunc, pfunc, replace, state, ()) =>
      ⟨frame, loops, forever, delay, stretch, ffunc, pfunc, replace, state⟩)
    (fun p => (p.frame, p.loops, p.loopForever, p.frameDelay, p.frameStretch,
      p.frameFunction, p.pixelFunction, p.replace, p.state, ()))

/-- The codec of an animation. -/
def Animation.codec : Codec Animation :=
  .record "AnimationDef"
    (.require "name" .string <| .optional "settings" Playback.codec {} <|
      .optional "frames" (.list Frame.codec) [] .nil)
    (fun (name, settings, frames, ()) => ⟨name, settings, frames⟩)
    (fun a => (a.name, a.settings, a.frames, ()))

/-- The codec of further settings. -/
def AnimationSettings.codec : Codec AnimationSettings :=
  .record "AnimationSettingsDef"
    (.require "name" .string <| .require "animation" .string <|
      .optional "trigger" (.option .string) none <|
      .optional "modifiers" Playback.codec {} .nil)
    (fun (name, animation, trigger, modifiers, ()) => ⟨name, animation, trigger, modifiers⟩)
    (fun s => (s.name, s.animation, s.trigger, s.modifiers, ()))

end Keymap.Config
