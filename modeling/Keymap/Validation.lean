import Keymap.Assembly.Build

/-!
# Checking tables

The checks look at the finished tables, and in some cases at the declarations
that a table has dropped. What was found while a table was built is not found
again. The report of an assembly holds what was recorded while it was built and
then the findings of the checks, in their order.
-/

namespace Keymap.Validation

/-- The greatest scan code that fits a byte. -/
def scanCodeLimit : Nat := 0xFF

/-- The greatest scan code fits a byte. -/
def maxScanCode (config : Config) : List Finding :=
  let value := config.maxScanCode.toNat
  if scanCodeLimit < value then
    [.error .maxScanCode "MaxScanCode" (.range (.maxScanCode value))]
  else []

/-- Every trigger fires a result. -/
def resultReferences (triggers : List TriggerRow) : List Finding :=
  (triggers.filter (·.result.isNone)).map fun trigger =>
    .error .resultResolves trigger.name
      (.reference (.result trigger.name trigger.resultName))

/-- The triggers filed beyond the greatest scan code, with the number of the
list and the layer. -/
def filedBeyond (max : Nat) (layers : List LayerRow) : List ((Nat × Nat) × String) :=
  layers.flatMap fun layer =>
    (layer.map.lists.filter fun entry => decide (max < entry.1)).flatMap fun (uid, triggers) =>
      triggers.map fun trigger => ((trigger, uid), layer.name)

/-- No trigger is filed beyond the greatest scan code; a trigger that several
layers file under one number is found once. -/
def scanCodeRange (assembly : Assembly) : List Finding :=
  let max := assembly.config.maxScanCode.toNat
  (firstsBy (·.1) [] (filedBeyond max assembly.layers)).map fun ((trigger, uid), layer) =>
    let name := (assembly.symbols.name? .trigger trigger).getD layer
    .error .scanCodeRange name (.range (.scanCode name uid max))

/-- The greatest number of capabilities. -/
def maxCapabilities : Nat := 256

/-- What is wrong with a call of a result. -/
def callFinding (capabilities : List Config.Capability) (result : String) (call : Guide.Call) :
    Option Finding :=
  match capabilities[call.capability.toNat]? with
  | none =>
    some (.error .capabilityArguments result
      (.reference (.symbol "capability index" (toString call.capability.toNat))))
  | some capability =>
    if call.args.length = capability.argBytes then none
    else
      some (.error .capabilityArguments result
        (.shape (.argumentWidth result capability.name capability.argBytes call.args.length)))

/-- The capabilities fit a byte, and every call has the bytes that its capability declares. -/
def capabilityArguments (assembly : Assembly) : List Finding :=
  let count := assembly.capabilities.length
  if maxCapabilities < count then
    [.error .capabilityArguments "CapabilitiesList"
      (.range (.indexOverflow "CapabilitiesList" count 8 maxCapabilities))]
  else
    assembly.results.flatMap fun result =>
      result.combos.flatten.filterMap (callFinding assembly.capabilities result.name)

/-- The number of entries that a state word counts, within 64 bits. -/
def wordLimit (bits : Nat) : Nat := if bits < 64 then 2 ^ bits else 2 ^ 64 - 1

/-- The finding on a table that is too long for the state word. -/
def tableFinding (bits : Nat) (table : String) (count : Nat) : List Finding :=
  if wordLimit bits < count then
    [.error .stateWordSize table (.range (.indexOverflow table count bits (wordLimit bits)))]
  else []

/-- The triggers and the results fit the state word. -/
def stateWordSize (assembly : Assembly) : List Finding :=
  match assembly.config.stateWordSize with
  | none => []
  | some bits =>
    tableFinding bits.toNat "TriggerMacroList" assembly.triggers.length ++
      tableFinding bits.toNat "ResultMacroList" assembly.results.length

/-- The boards whose offset is beyond the greatest scan code; `board` boards stand before. -/
def offsetsBeyond (max board : Nat) : (offsets : List Nat) → List Finding
  | [] => []
  | offset :: rest =>
    (if max < offset then
      [.error .interconnect "InterconnectOffsetList"
        (.range (.interconnectOffset board offset max))]
     else []) ++ offsetsBeyond max (board + 1) rest

/-- The boards whose offset is below that of the board before; `board` boards stand before. -/
def offsetsDescending (board : Nat) : (offsets : List Nat) → List Finding
  | previous :: offset :: rest =>
    (if offset < previous then
      [.error .interconnect "InterconnectOffsetList"
        (.shape (.interconnectOrder (board + 1) offset previous))]
     else []) ++ offsetsDescending (board + 1) (offset :: rest)
  | _ => []

/-- The offsets are in range and do not decrease. -/
def interconnect (assembly : Assembly) : List Finding :=
  offsetsBeyond assembly.config.maxScanCode.toNat 0 assembly.offsets ++
    offsetsDescending 0 assembly.offsets

/-- Every declared position has a scan code in range. -/
def keyPositions (config : Config) : List Finding :=
  let max := config.maxScanCode.toNat
  (config.positions.filter fun p =>
    decide (p.scanCode.toNat = 0) || decide (max < p.scanCode.toNat)).map fun p =>
      .error .keyPositions ("S" ++ toString p.scanCode.toNat)
        (.range (.position p.scanCode.toNat max))

/-- The name of a pixel in findings. -/
def pixelSymbol (id : Nat) : String := "pixel " ++ toString id

/-- The pixels are numbered from one, and each number is declared once. -/
def pixelNumbers (seen : List UInt16) : List Config.Pixel → List Finding
  | [] => []
  | pixel :: rest =>
    if pixel.id = 0 then
      .error .indexContiguity (pixelSymbol 0) (.shape (.indexGap "pixel" 1 0)) ::
        pixelNumbers seen rest
    else if pixel.id ∈ seen then
      .error .duplicates (pixelSymbol pixel.id.toNat)
          (.shape (.duplicate "pixel" (toString pixel.id.toNat))) ::
        pixelNumbers seen rest
    else pixelNumbers (pixel.id :: seen) rest

/-- A channel that a pixel uses: its buffer and its place in it, and the pixel. -/
structure ChannelUse where
  buffer : Nat
  offset : Nat
  pixel : Nat

/-- The pixel that uses a place first. -/
def ownerOf (owners : List ChannelUse) (buffer offset : Nat) : Option Nat :=
  (owners.find? fun use => decide (use.buffer = buffer ∧ use.offset = offset)).map (·.pixel)

/-- What is wrong with the channels of pixels, given the places that are in use before. -/
def channelFindings (map : PixelMap) (owners : List ChannelUse) :
    (uses : List (Nat × Nat)) → List Finding
  | [] => []
  | (pixel, channel) :: rest =>
    match map.locate channel with
    | none =>
      .error .pixelChannels (pixelSymbol pixel)
          (.range (.channel pixel channel map.totalChannels)) ::
        channelFindings map owners rest
    | some (buffer, offset) =>
      match ownerOf owners buffer offset with
      | none => channelFindings map (⟨buffer, offset, pixel⟩ :: owners) rest
      | some first =>
        (if first = pixel then []
         else
          [.error .pixelChannels (pixelSymbol pixel)
            (.shape (.duplicateChannel channel buffer offset first pixel))]) ++
          channelFindings map owners rest

/-- The channels of a row of the pixel table. -/
def channelsOf : PixelEntry → List Nat
  | .blank => []
  | .channels _ channels => channels

/-- Every pixel with each of its channels, in the order of the pixel table. -/
def channelUses (map : PixelMap) : List (Nat × Nat) :=
  map.mapping.zipIdx.flatMap fun (entry, i) =>
    (channelsOf entry).map fun channel => (i + 1, channel)

/-- Every channel lies in a buffer, and no two pixels share one. -/
def pixelChannels (map : PixelMap) : List Finding := channelFindings map [] (channelUses map)

/-- The first channels that are declared for buffers are those that follow from the lengths. -/
def bufferLayout (declared : Config.PixelSection) (map : PixelMap) : List Finding :=
  (declared.buffers.zip map.buffers).zipIdx.flatMap fun ((buffer, placed), i) =>
    match buffer.base with
    | none => []
    | some base =>
      if base.toNat = placed.base then []
      else
        [.error .bufferLayout buffer.buffer (.shape (.bufferBase i base.toNat placed.base))]

/-- The scan codes of pixels are in range; a second pixel on a scan code is a
warning. `owners` holds the scan codes that are taken before. -/
def pixelScanCodes (max : Nat) (owners : List (Nat × Nat)) : List Config.Pixel → List Finding
  | [] => []
  | pixel :: rest =>
    match pixel.scanCode with
    | none => pixelScanCodes max owners rest
    | some code =>
      let scanCode := code.toNat
      let id := pixel.id.toNat
      let symbol := pixelSymbol id
      let range :=
        if max < scanCode then
          [.error .scanCodePixels symbol (.range (.scanCode symbol scanCode max))]
        else []
      match owners.lookup scanCode with
      | some first =>
        let name := s!"S{scanCode} (pixels {first} and {id})"
        range ++
          .warning .scanCodePixels symbol (.shape (.duplicate "pixel scan code" name)) ::
            pixelScanCodes max owners rest
      | none => range ++ pixelScanCodes max ((scanCode, id) :: owners) rest

/-- Every entry of the scan code table is a pixel of the pixel table. -/
def scannedPixels (map : PixelMap) : List Finding :=
  map.scanToPixel.zipIdx.flatMap fun (pixel, i) =>
    let symbol := "S" ++ toString (i + 1)
    if map.totalPixels < pixel then
      [.error .scanCodePixels symbol (.reference (.pixel symbol pixel))]
    else []

/-- The finding on a display cell beyond the pixel table. -/
def cellFindings (maxPixel row : Nat) (cells : List Nat) : List Finding :=
  cells.zipIdx.flatMap fun (pixel, column) =>
    if maxPixel < pixel then
      [.error .displayMap "Pixel_DisplayMapping"
        (.range (.displayCell row column pixel maxPixel))]
    else []

/-- The display is a rectangle of pixels of the pixel table. -/
def displayMap (map : PixelMap) : List Finding :=
  let maxPixel := min map.totalPixels 65535
  map.display.zipIdx.flatMap fun (cells, row) =>
    (if cells.length = map.columns then []
     else
      [.error .displayMap "Pixel_DisplayMapping"
        (.shape (.displayRow row map.columns cells.length))]) ++
      cellFindings maxPixel row cells

/-- The payload bytes of a change. -/
def payloadWidth (format : Config.FrameFormat) (op : Config.ChangeOp) : Nat :=
  if op.isInterpolation then format.interpolationBytes.toNat else format.pixelBytes.toNat

/-- What is wrong with a frame. -/
def frameFindings (format : Config.FrameFormat) (animation : String)
    (frame : Animation.Frame) : List Finding :=
  let symbol := Animation.frameSymbol animation frame.number
  (if frame.isTerminated then []
   else [.error .frameTermination symbol (.shape (.frameTermination symbol))]) ++
    frame.records.flatMap fun record =>
      let expected := payloadWidth format record.op
      if record.payload.length = expected then []
      else
        [.error .frameFormat symbol (.shape (.payload symbol expected record.payload.length))]

/-- Every frame ends where its records end, and every payload is as wide as its change needs. -/
def frames (assembly : Assembly) : List Finding :=
  assembly.animations.flatMap fun animation =>
    animation.frames.flatMap (frameFindings assembly.frameFormat animation.name)

/-- The findings of the pixel checks. -/
def pixels (assembly : Assembly) : List Finding :=
  match assembly.config.pixels, assembly.pixels with
  | some declared, some map =>
    pixelChannels map ++ bufferLayout declared map ++
      pixelScanCodes assembly.config.maxScanCode.toNat [] declared.pixels ++
      scannedPixels map ++ displayMap map
  | _, _ => []

/-- The findings on the numbers of pixels. -/
def pixelIndices (config : Config) : List Finding :=
  match config.pixels with
  | some declared => pixelNumbers [] declared.pixels
  | none => []

/-- The findings of all checks. -/
def findings (assembly : Assembly) : List Finding :=
  maxScanCode assembly.config ++ resultReferences assembly.triggers ++
    scanCodeRange assembly ++ capabilityArguments assembly ++ stateWordSize assembly ++
    interconnect assembly ++ keyPositions assembly.config ++ pixelIndices assembly.config ++
    pixels assembly ++ frames assembly

end Keymap.Validation

namespace Keymap

/-- The report on an assembly. -/
def Assembly.validate (assembly : Assembly) : Report :=
  ⟨assembly.recorded ++ Validation.findings assembly⟩

/-- The report on a configuration. -/
def Config.check (config : Config) : Report := (Assembly.build config).validate

end Keymap
