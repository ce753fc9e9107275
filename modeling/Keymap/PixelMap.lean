import Keymap.Config.Pixels

/-!
# Pixel tables

The buffers of the light driver lie one behind the other, so that every channel
has a global number. The pixel table is indexed by the pixel number; of several
definitions the first counts. The tables from scan codes to pixels and to cells
of the display are indexed by the scan code; the first pixel on a scan code
counts. Row by row, the cells of the display are numbered from zero.
-/

namespace Keymap

/-- A buffer with the number of its first channel. -/
structure PixelBuffer where
  length : Nat
  width : Nat
  base : Nat
  symbol : String
  deriving DecidableEq

/-- A row of the pixel table. -/
inductive PixelEntry where
  | blank
  | channels (width : Nat) (channels : List Nat)
  deriving DecidableEq

/-- The size of the display. -/
structure Extent where
  columns : Nat := 0
  rows : Nat := 0
  deriving DecidableEq

/-- The tables of a pixel section. -/
structure PixelMap where
  buffers : List PixelBuffer
  /-- The pixels from the first one on. -/
  mapping : List PixelEntry
  /-- The pixel of every scan code from one on, zero for none. -/
  scanToPixel : List Nat
  /-- The display cell of every scan code from one on. -/
  scanToDisplay : List Nat
  display : List (List Nat)
  columns : Nat
  ledBufferStruct : Option String

namespace PixelMap

open Config (Buffer Pixel PixelSection)

/-- The greatest number of a channel. -/
def maxChannel : Nat := 2 ^ 32 - 1

/-- The buffers with the numbers of their first channels, never above the greatest number. -/
def layOut (base : Nat) : List Buffer → List PixelBuffer
  | [] => []
  | b :: rest =>
    ⟨b.length.toNat, b.width.toNat, base, b.buffer⟩ ::
      layOut (min (base + b.length.toNat) maxChannel) rest

/-- The buffer that holds a channel, and the place of the channel in it. -/
def locateIn (channel : Nat) : (index : Nat) → List PixelBuffer → Option (Nat × Nat)
  | _, [] => none
  | index, b :: rest =>
    if b.base ≤ channel ∧ channel - b.base < b.length then some (index, channel - b.base)
    else locateIn channel (index + 1) rest

/-- The greatest of some numbers, and zero if there are none. -/
def greatest (numbers : List Nat) : Nat := numbers.foldl Nat.max 0

/-- The first pixel with a number. -/
def firstWithId (pixels : List Pixel) (id : Nat) : Option Pixel :=
  pixels.find? fun p => decide (p.id.toNat = id)

/-- The pixel table entry of a pixel, as wide as the buffer of its first channel. -/
def entryOf (buffers : List PixelBuffer) (pixel : Option Pixel) : PixelEntry :=
  match pixel.map (·.channels.map (·.toNat)) with
  | some (first :: rest) =>
    let buffer := (locateIn first 0 buffers).bind fun place => buffers[place.1]?
    .channels ((buffer.map (·.width)).getD 0) (first :: rest)
  | _ => .blank

/-- The pixel table. -/
def mappingOf (buffers : List PixelBuffer) (pixels : List Pixel) : List PixelEntry :=
  (List.range (greatest (pixels.map (·.id.toNat)))).map fun i =>
    entryOf buffers (firstWithId pixels (i + 1))

/-- The scan codes of pixels, with the numbers of the pixels. -/
def scanned (pixels : List Pixel) : List (Nat × Nat) :=
  pixels.filterMap fun p =>
    match p.scanCode with
    | some s => if 0 < s then some (s.toNat, p.id.toNat) else none
    | none => none

/-- The pixel of every scan code. -/
def scanToPixelOf (pixels : List Pixel) : List Nat :=
  let entries := scanned pixels
  (List.range (greatest (entries.map (·.1)))).map fun i => (entries.lookup (i + 1)).getD 0

/-- The number of the first cell that holds a pixel, for rows from `row` on. -/
def cellFrom (columns pixel : Nat) : (row : Nat) → List (List Nat) → Option Nat
  | _, [] => none
  | row, cells :: rest =>
    match cells.idxOf? pixel with
    | some column => some (row * columns + column)
    | none => cellFrom columns pixel (row + 1) rest

/-- The columns of a display are those of its first row. -/
def columnsOf (display : List (List Nat)) : Nat := (display.head?.map (·.length)).getD 0

/-- The display cell of a pixel, zero if it has none. -/
def cellOrZero (display : List (List Nat)) (pixel : Nat) : Nat :=
  if pixel = 0 then 0 else (cellFrom (columnsOf display) pixel 0 display).getD 0

/-- The tables of a pixel section. -/
def build (declared : PixelSection) : PixelMap :=
  let buffers := layOut 0 declared.buffers
  let display := declared.display.map fun row => row.map (·.toNat)
  let scanToPixel := scanToPixelOf declared.pixels
  { buffers := buffers
    mapping := mappingOf buffers declared.pixels
    scanToPixel := scanToPixel
    scanToDisplay := scanToPixel.map (cellOrZero display)
    display := display
    columns := columnsOf display
    ledBufferStruct := declared.ledBufferStruct }

/-- The rows of the display. -/
def rows (map : PixelMap) : Nat := map.display.length

/-- The size of the display. -/
def extent (map : PixelMap) : Extent := ⟨map.columns, map.rows⟩

/-- The number of channels, never above the greatest number. -/
def totalChannels (map : PixelMap) : Nat :=
  match map.buffers.getLast? with
  | some b => min (b.base + b.length) maxChannel
  | none => 0

/-- The number of pixels. -/
def totalPixels (map : PixelMap) : Nat := map.mapping.length

/-- The buffer that holds a channel, and the place of the channel in it. -/
def locate (map : PixelMap) (channel : Nat) : Option (Nat × Nat) :=
  locateIn channel 0 map.buffers

/-- The number of the first cell that holds a pixel. -/
def displayOffset (map : PixelMap) (pixel : Nat) : Option Nat :=
  cellFrom map.columns pixel 0 map.display

/-- Some cell needs two bytes. -/
def wideDisplay (map : PixelMap) : Bool :=
  map.display.any fun row => row.any fun cell => decide (0xFF < cell)

end PixelMap

end Keymap
