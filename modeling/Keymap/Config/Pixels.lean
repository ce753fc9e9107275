import Keymap.Schema.Record

/-!
# Pixels

The lights of a keyboard. A pixel has channels in the buffers of the light
driver, may belong to a key, and may stand in the display, a table of rows.
-/

namespace Keymap.Config

/-- A buffer of the light driver with the number and width of its channels. -/
structure Buffer where
  length : UInt32
  width : UInt8
  /-- The number of the first channel, where it is declared. -/
  base : Option UInt32
  buffer : String

/-- A pixel; without channels it is blank. -/
structure Pixel where
  id : UInt16
  channels : List UInt32
  scanCode : Option UInt16

/-- The bytes of a change of one pixel, without and with interpolation. -/
structure FrameFormat where
  pixelBytes : UInt8 := 3
  interpolationBytes : UInt8 := 3

/-- The pixel section of a configuration. -/
structure PixelSection where
  buffers : List Buffer
  pixels : List Pixel
  /-- The rows of the display; zero is an empty cell. -/
  display : List (List UInt16)
  /-- Text for the head of the pixel source. -/
  ledBufferStruct : Option String
  frameFormat : FrameFormat

/-- The codec of a buffer. -/
def Buffer.codec : Codec Buffer :=
  .record "PixelBufferDef"
    (.require "length" .uint32 <| .require "width" .uint8 <|
      .optional "base" (.option .uint32) none <| .require "buffer" .string .nil)
    (fun (length, width, base, buffer, ()) => ⟨length, width, base, buffer⟩)
    (fun b => (b.length, b.width, b.base, b.buffer, ()))

/-- The codec of a pixel. -/
def Pixel.codec : Codec Pixel :=
  .record "PixelDef"
    (.require "id" .uint16 <| .optional "channels" (.list .uint32) [] <|
      .optional "scan_code" (.option .uint16) none .nil)
    (fun (id, channels, scanCode, ()) => ⟨id, channels, scanCode⟩)
    (fun p => (p.id, p.channels, p.scanCode, ()))

/-- The codec of a frame format. -/
def FrameFormat.codec : Codec FrameFormat :=
  let default : FrameFormat := {}
  .record "FrameFormat"
    (.optional "pixel_bytes" .uint8 default.pixelBytes <|
      .optional "interpolation_payload_bytes" .uint8 default.interpolationBytes .nil)
    (fun (pixel, interpolation, ()) => ⟨pixel, interpolation⟩)
    (fun f => (f.pixelBytes, f.interpolationBytes, ()))

/-- The codec of a pixel section. -/
def PixelSection.codec : Codec PixelSection :=
  .record "PixelConfig"
    (.require "buffers" (.list Buffer.codec) <|
      .optional "pixels" (.list Pixel.codec) [] <|
      .optional "display" (.list (.list .uint16)) [] <|
      .optional "led_buffer_struct" (.option .string) none <|
      .optional "frame_format" FrameFormat.codec {} .nil)
    (fun (buffers, pixels, display, struct, format, ()) =>
      ⟨buffers, pixels, display, struct, format⟩)
    (fun s => (s.buffers, s.pixels, s.display, s.ledBufferStruct, s.frameFormat, ()))

end Keymap.Config
