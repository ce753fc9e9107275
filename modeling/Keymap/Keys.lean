import Keymap.Config.Basic

/-!
# Keys of connected boards

The scan codes of a keyboard that is made of several boards, and the places of
its keys.
-/

namespace Keymap

/-!
## Scan codes across boards

Boards that are connected share one range of scan codes. Each board has an
offset, the effective scan code of its first key. Offsets that are not declared
follow from the sizes of the boards, without ever exceeding sixteen bits.
-/

/-- The greatest offset. -/
def maxOffset : Nat := 65535

/-- The offsets of boards that lie one behind the other from an offset on. -/
def cumulativeOffsets (next : Nat) : (sizes : List Nat) → List Nat
  | [] => []
  | size :: rest => next :: cumulativeOffsets (min (next + size) maxOffset) rest

namespace Config

/-- The offsets of the boards. -/
def offsets (config : Config) : List Nat :=
  if config.interconnectOffsets.isEmpty then
    cumulativeOffsets 0 (config.boardScanCodes.map (·.toNat))
  else config.interconnectOffsets.map (·.toNat)

end Config

/-- The offset of a board; without any offsets there is one board, at zero. -/
def boardOffset (offsets : List Nat) (board : Nat) : Option Nat :=
  match offsets[board]? with
  | some offset => some offset
  | none => if board = 0 ∧ offsets.isEmpty then some 0 else none

/-!
## The table of key positions

The table has one entry for every scan code from one up to the greatest one
that is declared. Of several declarations for a scan code the last counts; a
scan code without a declaration has all coordinates zero. Scan codes out of
range are left out.
-/

/-- The position of a key for which none is declared. -/
def Config.Position.origin (scanCode : UInt16) : Config.Position :=
  ⟨scanCode, .zero, .zero, .zero, .zero, .zero, .zero⟩

/-- The position table; the entry at `i` is that of the scan code `i + 1`. -/
structure KeyPositions where
  entries : List Config.Position

namespace KeyPositions

/-- The declarations with a scan code in range. -/
def inRange (positions : List Config.Position) (max : UInt16) : List Config.Position :=
  positions.filter fun p => decide (1 ≤ p.scanCode) && decide (p.scanCode ≤ max)

/-- The last declaration for a scan code. -/
def lastFor (positions : List Config.Position) (scanCode : UInt16) : Option Config.Position :=
  (positions.filter fun p => decide (p.scanCode = scanCode)).getLast?

/-- The table of the declared positions. -/
def build (positions : List Config.Position) (max : UInt16) : KeyPositions :=
  let valid := inRange positions max
  let greatest := (valid.map (·.scanCode.toNat)).foldl Nat.max 0
  ⟨(List.range greatest).map fun i =>
    let scanCode := UInt16.ofNat (i + 1)
    (lastFor valid scanCode).getD (.origin scanCode)⟩

end KeyPositions

end Keymap
