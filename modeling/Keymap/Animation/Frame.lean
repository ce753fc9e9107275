import Keymap.Animation.Address
import Keymap.Distinct
import Keymap.Report

/-!
# Frames as bytes

A frame is a stream of records, each with its mode, its address, its operation
and its payload, closed by the mode that ends a frame. The frames of an
animation are numbered from one without gaps: a number for which no frame is
declared has an empty one, and of several declarations the first counts.
-/

namespace Keymap.Animation

open Config (ChangeOp)

/-- The byte of a change. -/
def opByte : ChangeOp → UInt8
  | .set => 0
  | .add => 1
  | .subtract => 2
  | .noOp => 3
  | .interpLinear => 4
  | .interpEaseIn => 5
  | .interpEaseOut => 6

/-- A change of pixels with its address in bytes. -/
structure FrameRecord where
  mode : AddressMode
  address : List UInt8
  op : ChangeOp
  payload : List UInt8
  deriving DecidableEq

/-- The bytes of a record. -/
def FrameRecord.bytes (record : FrameRecord) : List UInt8 :=
  record.mode.byte :: record.address ++ opByte record.op :: record.payload

/-- The bytes from a record to the next one, where the address is as long as the mode says. -/
def FrameRecord.walked (record : FrameRecord) : Nat :=
  2 + record.mode.addressLength + record.payload.length

/-- A numbered list of records. -/
structure Frame where
  number : Nat
  records : List FrameRecord
  deriving DecidableEq

namespace Frame

/-- The bytes of a frame. -/
def bytes (frame : Frame) : List UInt8 :=
  frame.records.flatMap FrameRecord.bytes ++ [AddressMode.stop.byte]

/-- No record ends the frame, every address is as long as its mode says, and
walking from record to record leads to the last byte, which ends the frame. -/
def isTerminated (frame : Frame) : Bool :=
  let walked := (frame.records.map FrameRecord.walked).sum
  (frame.records.all fun r =>
      decide (r.mode ≠ .stop) && decide (r.address.length = r.mode.addressLength)) &&
    decide (frame.bytes.length = walked + 1) &&
    decide (frame.bytes.getLast? = some AddressMode.stop.byte)

end Frame

/-- An animation with its frames from the first one on. -/
structure Compiled where
  name : String
  frames : List Frame
  deriving DecidableEq

/-- The greatest number of a frame. -/
def maxFrame : Nat := 0xFFFF

/-- The symbol of a frame. -/
def frameSymbol (animation : String) (number : Nat) : String :=
  animation ++ "_frame" ++ toString number

/-- A record with its address in bytes, or what is wrong with the address. -/
def encodeRecord (symbol : String) (extent : Extent) (record : Config.PixelRecord) :
    Except RangeFault FrameRecord := do
  let (mode, address) ← encodeAddress symbol extent record.address
  return ⟨mode, address, record.op, record.payload⟩

/-- The records of a frame whose addresses can be encoded. -/
def encodeRecords (symbol : String) (extent : Extent) (records : List Config.PixelRecord) :
    List FrameRecord :=
  records.filterMap fun record => (encodeRecord symbol extent record).toOption

/-- The findings on the records of a frame, one for each that cannot be encoded. -/
def recordFindings (symbol : String) (extent : Extent) (records : List Config.PixelRecord) :
    List Finding :=
  records.filterMap fun record =>
    match encodeRecord symbol extent record with
    | .ok _ => none
    | .error fault => some (.error .frameFormat symbol (.range fault))

/-- The number of a frame is in range. -/
def hasNumber (frame : Config.Frame) : Bool :=
  decide (1 ≤ frame.index.toNat) && decide (frame.index.toNat ≤ maxFrame)

/-- The frames that count: those with a number in range, the first one for each number. -/
def kept (animation : Config.Animation) : List Config.Frame :=
  firstsBy (·.index) [] (animation.frames.filter hasNumber)

/-- The frames of an animation from the first one on. -/
def framesOf (extent : Extent) (animation : Config.Animation) : List Frame :=
  let kept := kept animation
  let last := PixelMap.greatest (kept.map (·.index.toNat))
  (List.range last).map fun i =>
    let number := i + 1
    match kept.find? fun frame => decide (frame.index.toNat = number) with
    | some frame =>
      ⟨number, encodeRecords (frameSymbol animation.name number) extent frame.records⟩
    | none => ⟨number, []⟩

/-- The findings on the frames of an animation from some frame on; `seen` holds
the numbers of the frames before it that count. -/
def findingsFrom (extent : Extent) (name : String) (seen : List UInt32) :
    List Config.Frame → List Finding
  | [] => []
  | frame :: rest =>
    let number := frame.index.toNat
    let symbol := frameSymbol name number
    if number = 0 then
      .error .indexContiguity symbol (.shape (.indexGap "animation frame" 1 0)) ::
        findingsFrom extent name seen rest
    else if maxFrame < number then
      .error .frameFormat symbol (.range (.frameIndex name number maxFrame)) ::
        findingsFrom extent name seen rest
    else if frame.index ∈ seen then
      .error .duplicates symbol (.shape (.duplicate "animation frame" symbol)) ::
        findingsFrom extent name seen rest
    else
      recordFindings symbol extent frame.records ++
        findingsFrom extent name (frame.index :: seen) rest

/-- The animation with its frames in bytes. -/
def compile (extent : Extent) (animation : Config.Animation) : Compiled :=
  ⟨animation.name, framesOf extent animation⟩

/-- What is wrong with the frames of an animation, in the order of declaration. -/
def findings (extent : Extent) (animation : Config.Animation) : List Finding :=
  findingsFrom extent animation.name [] animation.frames

end Keymap.Animation
