import Keymap.Validation
import Keymap.Proofs.Findings

/-!
# Well-formed configurations

What a configuration has to be like for its tables to be written, said of the
declarations alone: which names are distinct, what may be referred to, and
which numbers fit the tables and guides that they go into. Nothing here speaks
of the tables or of the order in which they are assembled.
-/

namespace Keymap.Config

/-- The names under which results may start an animation, in the order of the
settings table. -/
def settingsNames (config : Config) : List String :=
  config.animations.map (·.name) ++ config.animationSettings.map (·.name)

/-- The scan codes of a board begin at an offset; without offsets there is one
board, at zero. -/
def BoardAt (config : Config) (board offset : Nat) : Prop :=
  config.offsets[board]? = some offset ∨ config.offsets = [] ∧ board = 0 ∧ offset = 0

/-- A declared capability with exactly one argument takes the value. -/
def Serves (config : Config) (name : String) (value : Int) : Prop :=
  ∃ capability ∈ config.capabilities, capability.name = name ∧
    ∃ arg, capability.args = [arg] ∧ Guide.Fits value arg.width.toNat

/-- The values are as many as the arguments, and each fits its argument. -/
def ValuesFit (values : List Int64) (args : List Argument) : Prop :=
  values.length = args.length ∧
    ∀ entry ∈ values.zip args, Guide.Fits entry.1.toInt entry.2.width.toNat

/-- The capability that the routing has for a layer mode. -/
def Routing.layer (routing : Routing) : LayerMode → String
  | .shift => routing.layerShift
  | .latch => routing.layerLatch
  | .lock => routing.layerLock

/-- The name of the spacer, which has one even where the routing has none. -/
def Routing.spacerName (routing : Routing) : String := routing.spacer.getD "spacer"

/-- An element calls a declared capability with values that fit it. -/
def ResultElement.Valid (config : Config) : ResultElement → Prop
  | .capability name values =>
    ∃ capability ∈ config.capabilities, capability.name = name ∧
      ValuesFit values capability.args
  | .usb code => config.Serves config.routing.usb code.toNat
  | .consumer code => config.Serves config.routing.consumer code.toNat
  | .system code => config.Serves config.routing.system code.toNat
  | .layer mode n =>
    n.toNat < config.layers.length ∧ config.Serves (config.routing.layer mode) n.toNat
  | .animation settings =>
    ∃ index : Nat, config.settingsNames[index]? = some settings ∧
      config.Serves config.routing.animation index
  | .none => config.routing.spacerName ∈ config.capabilities.map (·.name)

/-- A result is well shaped, its elements are valid, and between several steps
there is a spacer that exists. -/
structure Result.Valid (config : Config) (result : Result) : Prop where
  shaped : Assembly.Shaped result.steps
  elements : ∀ step ∈ result.steps, ∀ element ∈ step, element.Valid config
  spacer : 1 < result.steps.length → ∀ name, config.routing.spacer = some name →
    name ∈ config.capabilities.map (·.name)

/-- What an element waits for exists and has a number that a type of its class can hold. -/
def TriggerElement.Valid (config : Config) : TriggerElement → Prop
  | .switch scanCode board _ =>
    ∃ offset, config.BoardAt board.toNat offset ∧ scanCode.toNat + offset < 1024
  | .indicator code _ => code.toNat < 256
  | .layer n _ _ => n.toNat < config.layers.length ∧ n.toNat < 1024
  | .animation name _ =>
    ∃ index, (config.animations.map (·.name))[index]? = some name ∧ index < 1024
  | .analog code _ => code.toNat < 1024
  | .generic _ uid _ => uid.toNat < 256

/-- The number of the list through which an element fires; an analog key has none. -/
def TriggerElement.FiledUnder (config : Config) (uid : Nat) : TriggerElement → Prop
  | .switch scanCode board _ =>
    ∃ offset, config.BoardAt board.toNat offset ∧ uid = scanCode.toNat + offset
  | .indicator code _ => uid = code.toNat
  | .layer n _ _ => n.toNat < config.layers.length ∧ uid = n.toNat
  | .animation name _ => (config.animations.map (·.name))[uid]? = some name
  | .analog _ _ => False
  | .generic _ genericUid _ => uid = genericUid.toNat

/-- A trigger is well shaped, its elements are valid, and it fires a declared result. -/
structure Trigger.Valid (config : Config) (trigger : Trigger) : Prop where
  shaped : Assembly.Shaped trigger.sequence
  elements : ∀ step ∈ trigger.sequence, ∀ element ∈ step, element.Valid config
  result : trigger.result ∈ config.results.map (·.name)

/-- Every name that a layer binds is that of a trigger, and the trigger fires
only through lists up to the greatest scan code. -/
def Layer.Valid (config : Config) (layer : Layer) : Prop :=
  ∀ name ∈ layer.triggers, ∃ trigger ∈ config.triggers, trigger.name = name ∧
    ∀ element ∈ trigger.sequence.flatten, ∀ uid, element.FiledUnder config uid →
      uid ≤ config.maxScanCode.toNat

/-- Settings are for a declared animation, and a trigger that they name is declared. -/
structure AnimationSettings.Valid (config : Config) (settings : AnimationSettings) : Prop where
  animation : settings.animation ∈ config.animations.map (·.name)
  trigger : ∀ name, settings.trigger = some name → name ∈ config.triggers.map (·.name)

/-- The columns of a display are the cells of its first row. -/
def PixelSection.columns (pixels : PixelSection) : Nat :=
  (pixels.display.head?.map (·.length)).getD 0

/-- The size of the display, zero without a pixel section. -/
def extent (config : Config) : Extent :=
  match config.pixels with
  | some pixels => ⟨pixels.columns, pixels.display.length⟩
  | none => {}

/-- The payload bytes of changes, the usual ones without a pixel section. -/
def frameFormat (config : Config) : FrameFormat :=
  match config.pixels with
  | some pixels => pixels.frameFormat
  | none => {}

/-- A fraction lies between zero and one, and the place that it stands for fits two bytes. -/
def Coordinate.Valid (extent : Nat) : Coordinate → Prop
  | .absolute _ => True
  | .fraction f =>
    f.inUnitInterval = true ∧ Keymap.Animation.share (min (extent - 1) (2 ^ 32 - 1)) f < 2 ^ 16

/-- The coordinates of an address are valid on a display. -/
def Address.Valid (extent : Extent) : Address → Prop
  | .rect column row => column.Valid extent.columns ∧ row.Valid extent.rows
  | .columnFill column _ => column.Valid extent.columns
  | .rowFill row _ => row.Valid extent.rows
  | _ => True

/-- A record has a valid address and as many payload bytes as its change takes. -/
structure PixelRecord.Valid (config : Config) (record : PixelRecord) : Prop where
  address : record.address.Valid config.extent
  payload : record.payload.length = Validation.payloadWidth config.frameFormat record.op

/-- The frames of an animation have distinct numbers in range, and their records are valid. -/
structure Animation.Valid (config : Config) (animation : Animation) : Prop where
  numbers : ∀ frame ∈ animation.frames, 1 ≤ frame.index.toNat ∧ frame.index.toNat ≤ 65535
  distinct : (animation.frames.map (·.index)).Nodup
  records : ∀ frame ∈ animation.frames, ∀ record ∈ frame.records, record.Valid config

/-- The channels of some buffers together. -/
def channelCount (buffers : List Buffer) : Nat := (buffers.map (·.length.toNat)).sum

/-- The pixels have distinct numbers and channels, every channel lies in a
buffer, first channels that are declared are the numbers of the channels before
them (as far as 32 bits hold them), scan codes are in range, and the display is
a rectangle of pixels. -/
structure PixelSection.Valid (max : Nat) (pixels : PixelSection) : Prop where
  ids : ∀ pixel ∈ pixels.pixels, pixel.id ≠ 0
  distinct : (pixels.pixels.map (·.id)).Nodup
  channels : ∀ pixel ∈ pixels.pixels, ∀ channel ∈ pixel.channels,
    channel.toNat < channelCount pixels.buffers
  disjoint : pixels.pixels.Pairwise fun p q => ∀ channel ∈ p.channels, channel ∉ q.channels
  bases : ∀ i buffer base, pixels.buffers[i]? = some buffer → buffer.base = some base →
    base.toNat = min (channelCount (pixels.buffers.take i)) (2 ^ 32 - 1)
  scanCodes : ∀ pixel ∈ pixels.pixels, ∀ scanCode, pixel.scanCode = some scanCode →
    scanCode.toNat ≤ max
  rows : ∀ row ∈ pixels.display, row.length = pixels.columns
  cells : ∀ row ∈ pixels.display, ∀ cell ∈ row, cell = 0 ∨ ∃ pixel ∈ pixels.pixels, cell ≤ pixel.id

/-- A configuration whose tables can be written. -/
structure WellFormed (config : Config) : Prop where
  capabilityNames : (config.capabilities.map (·.name)).Nodup
  resultNames : (config.results.map (·.name)).Nodup
  triggerNames : (config.triggers.map (·.name)).Nodup
  /-- Animations and settings have one name space. -/
  settingsNames : config.settingsNames.Nodup
  maxScanCode : config.maxScanCode.toNat ≤ 255
  capabilityCount : config.capabilities.length ≤ 256
  results : ∀ result ∈ config.results, result.Valid config
  triggers : ∀ trigger ∈ config.triggers, trigger.Valid config
  layers : ∀ layer ∈ config.layers, layer.Valid config
  settings : ∀ settings ∈ config.animationSettings, settings.Valid config
  animations : ∀ animation ∈ config.animations, animation.Valid config
  /-- The state word counts the triggers and the results, within 64 bits. -/
  stateWord : ∀ bits, config.stateWordSize = some bits →
    config.triggers.length ≤ min (2 ^ bits.toNat) (2 ^ 64 - 1) ∧
      config.results.length ≤ min (2 ^ bits.toNat) (2 ^ 64 - 1)
  offsets : ∀ offset ∈ config.offsets, offset ≤ config.maxScanCode.toNat
  ascending : config.offsets.Pairwise (· ≤ ·)
  positions : ∀ position ∈ config.positions,
    1 ≤ position.scanCode.toNat ∧ position.scanCode.toNat ≤ config.maxScanCode.toNat
  pixels : ∀ pixels, config.pixels = some pixels → pixels.Valid config.maxScanCode.toNat

end Keymap.Config
