import Keymap.Config.Animation
import Keymap.Fault
import Keymap.Guide
import Keymap.PixelMap

/-!
# Addresses as bytes

An address has a mode byte and four bytes behind it: one number of four bytes
or two of two bytes, the least significant byte first. A fraction of the
display becomes a column or row by its share of the last one, rounded to the
nearest, a half away from zero.
-/

namespace Keymap.Animation

open Config (Coordinate Address)

/-- How the bytes of an address are to be read; a frame ends with the mode `stop`. -/
inductive AddressMode where
  | stop
  | index
  | rect
  | columnFill
  | rowFill
  | scanCode
  | relativeIndex
  | relativeRect
  | relativeColumnFill
  | relativeRowFill
  deriving DecidableEq

namespace AddressMode

/-- All modes in the order of their bytes. -/
def all : List AddressMode :=
  [.stop, .index, .rect, .columnFill, .rowFill, .scanCode, .relativeIndex, .relativeRect,
   .relativeColumnFill, .relativeRowFill]

/-- The byte of a mode. -/
def byte : AddressMode → UInt8
  | .stop => 0
  | .index => 1
  | .rect => 2
  | .columnFill => 3
  | .rowFill => 4
  | .scanCode => 5
  | .relativeIndex => 6
  | .relativeRect => 7
  | .relativeColumnFill => 8
  | .relativeRowFill => 9

/-- The bytes that follow the mode. -/
def addressLength : AddressMode → Nat
  | .stop => 0
  | _ => 4

end AddressMode

/-- The integer nearest to the product of a natural number and a fraction, held
within 64 bits; zero for a product that is not a number. -/
def share (span : Nat) (fraction : Binary64) : Int :=
  if fraction.isNaN then 0
  else if fraction.isFinite then
    let product := (Binary64.ofNat span).mul fraction
    let size : Int := product.roundHalfUp
    if product.isFinite ∧ size < 2 ^ 63 then (if product.isNegative then -size else size)
    else if fraction.isNegative then -2 ^ 63 else 2 ^ 63 - 1
  else if span = 0 then 0
  else if fraction.isNegative then -2 ^ 63 else 2 ^ 63 - 1

/-- The column or row of a coordinate in a display with so many of them. -/
def resolve (symbol : String) (extent : Nat) : Coordinate → Except RangeFault Int
  | .absolute value => .ok value.toNat
  | .fraction fraction =>
    let value := share (min (extent - 1) (2 ^ 32 - 1)) fraction
    if fraction.inUnitInterval ∧ 0 ≤ value ∧ value < 2 ^ 16 then .ok value
    else .error (.address symbol value 2)

/-- Two numbers of two bytes. -/
def pairBytes (first second : Int) : List UInt8 :=
  Guide.lowBytes first 2 ++ Guide.lowBytes second 2

/-- The mode and bytes of an address on a display of some size. -/
def encodeAddress (symbol : String) (extent : Extent) :
    Address → Except RangeFault (AddressMode × List UInt8)
  | .index n => .ok (.index, Guide.lowBytes n.toNat 4)
  | .scanCode n => .ok (.scanCode, Guide.lowBytes n.toNat 4)
  | .rect column row => do
    let column ← resolve symbol extent.columns column
    let row ← resolve symbol extent.rows row
    return (.rect, pairBytes column row)
  | .columnFill column secondary => do
    let column ← resolve symbol extent.columns column
    return (.columnFill, pairBytes column secondary.toNat)
  | .rowFill row secondary => do
    let row ← resolve symbol extent.rows row
    return (.rowFill, pairBytes row secondary.toNat)
  | .relativeIndex offset => .ok (.relativeIndex, Guide.lowBytes offset.toInt 4)
  | .relativeRect column row => .ok (.relativeRect, pairBytes column.toInt row.toInt)
  | .relativeColumnFill column secondary =>
    .ok (.relativeColumnFill, pairBytes column.toInt secondary.toInt)
  | .relativeRowFill row secondary =>
    .ok (.relativeRowFill, pairBytes row.toInt secondary.toInt)

end Keymap.Animation
