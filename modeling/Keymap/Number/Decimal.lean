import Keymap.Number.Binary64

/-!
# Decimals of fractional numbers

A fractional number is written with the fewest digits that read back as the
number, in the layout that a format chooses.
-/

namespace Keymap

/-!
## The shortest decimal of a binary64 number

The decimals that read back as a number are those nearer to it than to any
other, the two halfway points included when its significand is even. Among
them the one with the fewest digits is taken, and of two with equally few the
nearer. What happens when both are equally near is left to the caller, because
formats differ there.
-/

/-- A positive decimal: `digits * 10 ^ exponent`. -/
structure Decimal where
  digits : Nat
  exponent : Int
  deriving DecidableEq

namespace Binary64

/-- The greatest `p` with `10 ^ p ≤ num / den`. -/
def decimalMagnitude (num den : Nat) : Int :=
  if den ≤ num then ((Nat.toDigits 10 (num / den)).length : Int) - 1
  else -((Nat.toDigits 10 ((den - 1) / num)).length : Int)

/-- A positive number with its two halfway points, over one denominator. -/
structure Neighbourhood where
  low : Nat
  value : Nat
  high : Nat
  den : Nat
  closed : Bool

/-- The decimals that read back as `x` lie in this neighbourhood. Below a power
of two the numbers are twice as dense, so the lower halfway point is nearer. -/
def neighbourhood (x : Binary64) : Neighbourhood :=
  let scale := 2 ^ (x.exponent - 2).toNat
  let m := x.significand
  let below := if x.fraction = 0 ∧ 1 < x.exponentField then 1 else 2
  ⟨(4 * m - below) * scale, 4 * m * scale, (4 * m + 2) * scale,
    2 ^ (2 - x.exponent).toNat, m % 2 = 0⟩

namespace Neighbourhood

/-- The decimal reads back as the number. -/
def contains (n : Neighbourhood) (d : Decimal) : Bool :=
  let point := d.digits * 10 ^ d.exponent.toNat * n.den
  let scale := 10 ^ (-d.exponent).toNat
  let low := n.low * scale
  let high := n.high * scale
  if n.closed then decide (low ≤ point) && decide (point ≤ high)
  else decide (low < point) && decide (point < high)

/-- The number is nearer to the decimal's successor on its grid than to the decimal itself. -/
def prefersNext (n : Neighbourhood) (tiesUp : Bool) (d : Decimal) : Bool :=
  let middle := (2 * d.digits + 1) * 10 ^ d.exponent.toNat * n.den
  let value := 2 * n.value * 10 ^ (-d.exponent).toNat
  decide (middle < value) || (decide (middle = value) && (tiesUp || d.digits % 2 = 1))

/-- The greatest point of the grid `10 ^ k` that is not above the number. -/
def gridPoint (n : Neighbourhood) (k : Int) : Decimal :=
  ⟨n.value * 10 ^ (-k).toNat / (n.den * 10 ^ k.toNat), k⟩

/-- The best decimal on the grid `10 ^ k`, if one of the two points around the number reads back. -/
def onGrid (n : Neighbourhood) (tiesUp : Bool) (k : Int) : Option Decimal :=
  let lower := n.gridPoint k
  let upper : Decimal := ⟨lower.digits + 1, k⟩
  match n.contains lower, n.contains upper with
  | true, true => some (if n.prefersNext tiesUp lower then upper else lower)
  | true, false => some lower
  | false, true => some upper
  | false, false => none

end Neighbourhood

/-- The shortest decimal that reads back as a finite number other than zero;
seventeen digits always do. The power of ten above the number is tried first,
because a number just below it may have that for its decimal. -/
def shortest (tiesUp : Bool) (x : Binary64) : Decimal :=
  let n := x.neighbourhood
  let top := decimalMagnitude n.value n.den
  let grids := (List.range 18).map fun (count : Nat) => top + 1 - (count : Int)
  (grids.findSome? (n.onGrid tiesUp)).getD (n.gridPoint (top - 16))

example : (ofQuotient false 3 10).shortest true = ⟨3, -1⟩ := by decide +kernel
example : (ofQuotient false 1 1000000).shortest true = ⟨1, -6⟩ := by decide +kernel
example : shortest true ⟨1⟩ = ⟨5, -324⟩ := by decide +kernel
example : shortest true ⟨0x7FEFFFFFFFFFFFFF⟩ = ⟨17976931348623157, 292⟩ := by decide +kernel
example : (ofQuotient false (2 ^ 52 + 1) 4).shortest false = ⟨11258999068426242, -1⟩ := by
  decide +kernel
example : (ofQuotient false (2 ^ 52 + 1) 4).shortest true = ⟨11258999068426243, -1⟩ := by
  decide +kernel

end Binary64

/-!
## Writing a number

A finite number is written with its shortest digits and always with a decimal
point when it is written positionally. Where the exponent form begins, whether
a positive exponent carries a sign, and which of two equally near decimals is
taken are fields of a layout, so that each format states its choice in one value.
-/

/-- The choices of a format on how a number is written. -/
structure NumberLayout where
  /-- The least power of ten whose multiples are written positionally. -/
  leastPositional : Int
  /-- A positive exponent is written with a sign. -/
  exponentPlus : Bool
  /-- Of two equally near decimals the greater is taken, and else the even one. -/
  tiesUp : Bool

namespace NumberLayout

/-- From this power of ten on every format here uses the exponent form. -/
def firstExponential : Int := 16

/-- Digits with a point behind the first one, if any follow. -/
def mantissa (digits : List Char) : List Char :=
  match digits with
  | [] => []
  | [d] => [d]
  | d :: rest => d :: '.' :: rest

/-- The digits of a decimal written without an exponent. -/
def positional (digits : List Char) (exponent : Int) : List Char :=
  let count : Int := digits.length + exponent
  if 0 ≤ exponent then digits ++ List.replicate exponent.toNat '0' ++ ['.', '0']
  else if 0 < count then digits.take count.toNat ++ '.' :: digits.drop count.toNat
  else '0' :: '.' :: List.replicate (-count).toNat '0' ++ digits

/-- The text of a positive decimal. -/
def writeDecimal (layout : NumberLayout) (d : Decimal) : String :=
  let digits := Nat.toDigits 10 d.digits
  let power : Int := digits.length + d.exponent - 1
  if layout.leastPositional ≤ power ∧ power < firstExponential then
    String.ofList (positional digits d.exponent)
  else
    let sign := if 0 ≤ power ∧ layout.exponentPlus then "+" else ""
    String.ofList (mantissa digits) ++ "e" ++ sign ++ toString power

/-- The text of a finite number. -/
def writeFinite (layout : NumberLayout) (x : Binary64) : String :=
  (if x.isNegative then "-" else "") ++
    if x.isZero then "0.0" else layout.writeDecimal (x.shortest layout.tiesUp)

end NumberLayout

end Keymap
