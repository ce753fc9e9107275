import Keymap.Listing.Layers
import Keymap.Number.Decimal
import Keymap.PixelMap

/-!
# Listings of key positions and pixels

A coordinate is written with its shortest digits: the exponent form is used
below `10 ^ -4` and from `10 ^ 16` on, and of two equally near decimals the
greater is taken. A pixel with three channels has a short form. The display is
listed row by row, its numbers aligned to the right.
-/

namespace Keymap

/-- Numbers in a listing: no sign on a positive exponent. -/
def NumberLayout.listing : NumberLayout := ⟨-4, false, true⟩

namespace Listing

section Positions

/-- The text of a coordinate. -/
def coordinate (x : Binary64) : String :=
  if x.isNaN then "NaN"
  else if x.isFinite then NumberLayout.listing.writeFinite x
  else if x.isNegative then "-inf"
  else "inf"

/-- The coordinates of a position. -/
def coordinates (p : Config.Position) : List String :=
  [p.x, p.y, p.z, p.rx, p.ry, p.rz].map coordinate

/-- The table of key positions. -/
def positionTable (assembly : Assembly) : String :=
  table "const Position Key_Positions[]" <|
    assembly.positions.entries.map fun p =>
      row ("PositionEntry( " ++ tokens (coordinates p) ++ " ), // S" ++ toString p.scanCode.toNat)

example : coordinate (.ofQuotient false 1 10000) = "0.0001" := by decide +kernel
example : coordinate (.ofQuotient false 3 200000) = "1.5e-5" := by decide +kernel
example : coordinate (.ofNat (10 ^ 16)) = "1e16" := by decide +kernel
example : coordinate (.infinity true) = "-inf" := by decide +kernel

end Positions

section Pixels

/-- The text for the head of the pixel source. -/
def ledBufferStruct (map : PixelMap) : String := map.ledBufferStruct.getD ""

/-- The table of buffers. -/
def bufferTable (map : PixelMap) : String :=
  table "PixelBuf Pixel_Buffers[]" <|
    map.buffers.map fun b =>
      row ("PixelBufElem( " ++
        tokens [toString b.length, toString b.width, toString b.base, b.symbol] ++ " ),")

/-- Numbers without blanks between them. -/
def numbers (ns : List Nat) : String := String.intercalate "," (ns.map toString)

/-- The element of a pixel. -/
def pixelElement : PixelEntry → String
  | .blank => "Pixel_Blank()"
  | .channels width channels =>
    if channels.length = 3 then "Pixel_RGBChannel(" ++ numbers channels ++ ")"
    else
      "\x7b " ++ tokens [toString width, toString channels.length,
        "\x7b" ++ numbers channels ++ "\x7d"] ++ " \x7d"

/-- The table of pixels. -/
def pixelTable (map : PixelMap) : String :=
  table "const PixelElement Pixel_Mapping[]" <|
    map.mapping.zipIdx.map fun (entry, i) =>
      row (pixelElement entry ++ ", // " ++ toString (i + 1))

/-- A table of numbers by scan code. -/
def scanCodeTable (name : String) (values : List Nat) : String :=
  table ("const uint16_t " ++ name ++ "[]") <|
    values.zipIdx.map fun (value, i) => numberedRow (i + 1) value

/-- The pixels of the scan codes. -/
def scanToPixel (map : PixelMap) : String := scanCodeTable "Pixel_ScanCodeToPixel" map.scanToPixel

/-- The display cells of the scan codes. -/
def scanToDisplay (map : PixelMap) : String :=
  scanCodeTable "Pixel_ScanCodeToDisplay" map.scanToDisplay

/-- A number with blanks in front, three characters wide. -/
def aligned (n : Nat) : String :=
  let digits := Nat.toDigits 10 n
  String.ofList (List.replicate (3 - digits.length) ' ' ++ digits)

/-- The type of the cells of the display. -/
def cellType (map : PixelMap) : String := if map.wideDisplay then "uint16_t" else "uint8_t"

/-- A row of the display. -/
def displayRow (cells : List Nat) : String :=
  String.intercalate "," (cells.map aligned) ++ ",\n"

/-- The display. -/
def displayTable (map : PixelMap) : String :=
  table ("const " ++ cellType map ++ " Pixel_DisplayMapping[]") (map.display.map displayRow)

end Pixels

end Listing

end Keymap
