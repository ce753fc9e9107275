/-!
# Fractional numbers as binary64 words

A fractional number of a configuration is its 64-bit word. Every operation
reads the exact value of its arguments as a quotient of naturals, works there,
and rounds once to the nearest word, a half going to the even significand. No
machine floating point is involved, so equality of numbers is equality of words.

Powers, the zero of sums and the comparison of bytes are those of the core library
in every module, also where a library is imported that has its own.
-/

namespace Keymap

-- The priorities are those that put these instances before the ones of any library.
@[default_instance 20000]
instance (priority := 1100) powNat {α : Type} [NatPow α] : Pow α Nat := instPowNat

instance (priority := 1100) zeroNat : Zero Nat := Zero.ofOfNat0

instance (priority := 1100) decidableEqBytes : DecidableEq ByteArray := ByteArray.instDecidableEq

/-- A binary64 number, given by its word: one sign bit, eleven exponent bits, 52 fraction bits. -/
structure Binary64 where
  bits : UInt64
  deriving DecidableEq, Inhabited

namespace Binary64

/-- The sign bit is set, also for a negative zero. -/
def isNegative (x : Binary64) : Bool := decide (2 ^ 63 ≤ x.bits.toNat)

/-- The biased exponent, from 0 to 2047. -/
def exponentField (x : Binary64) : Nat := x.bits.toNat / 2 ^ 52 % 2 ^ 11

/-- The 52 bits behind the leading one. -/
def fraction (x : Binary64) : Nat := x.bits.toNat % 2 ^ 52

/-- Neither an infinity nor a NaN. -/
def isFinite (x : Binary64) : Bool := decide (x.exponentField < 2047)

/-- Not a number: the greatest exponent with a fraction. -/
def isNaN (x : Binary64) : Bool := decide (x.exponentField = 2047) && decide (0 < x.fraction)

/-- Either zero. -/
def isZero (x : Binary64) : Bool := decide (x.bits.toNat % 2 ^ 63 = 0)

/-- The significand `m` of a finite magnitude `m * 2 ^ q`. -/
def significand (x : Binary64) : Nat :=
  if x.exponentField = 0 then x.fraction else 2 ^ 52 + x.fraction

/-- The exponent `q` of a finite magnitude `m * 2 ^ q`. -/
def exponent (x : Binary64) : Int := max x.exponentField 1 - 1075

/-- The numerator of a finite magnitude as a quotient of naturals. -/
def numerator (x : Binary64) : Nat := x.significand * 2 ^ x.exponent.toNat

/-- The denominator of a finite magnitude as a quotient of naturals, a power of two. -/
def denominator (x : Binary64) : Nat := 2 ^ (-x.exponent).toNat

/-- The word with a given sign and magnitude bits. -/
def ofFields (negative : Bool) (magnitude : Nat) : Binary64 :=
  ⟨UInt64.ofNat (magnitude + if negative then 2 ^ 63 else 0)⟩

/-- Zero without a sign. -/
def zero : Binary64 := ⟨0⟩

/-- The infinity of a sign. -/
def infinity (negative : Bool) : Binary64 := ofFields negative (2047 * 2 ^ 52)

/-- The quiet NaN. -/
def nan : Binary64 := ofFields false (2047 * 2 ^ 52 + 2 ^ 51)

/-- The same magnitude with the other sign. -/
def neg (x : Binary64) : Binary64 := ⟨x.bits ^^^ 0x8000000000000000⟩

/-- The natural nearest to a quotient, a half going to the even neighbour. -/
def roundQuotient (num den : Nat) : Nat :=
  let quotient := num / den
  let rest := num % den
  if den < 2 * rest ∨ (2 * rest = den ∧ quotient % 2 = 1) then quotient + 1 else quotient

/-- The exponent of the last place that a positive quotient keeps: 53 binary
digits in front of it, and never below the least exponent of the format. -/
def lastPlace (num den : Nat) : Int :=
  let guess : Int := (num.log2 : Int) - den.log2 - 52
  let scaled := num * 2 ^ (-guess).toNat / (den * 2 ^ guess.toNat)
  max (if scaled < 2 ^ 52 then guess - 1 else guess) (-1074)

/-- The number nearest to a quotient of naturals, infinite from half a place
above the greatest finite number on. -/
def ofQuotient (negative : Bool) (num den : Nat) : Binary64 :=
  if num = 0 then ofFields negative 0
  else
    let place := lastPlace num den
    let m := roundQuotient (num * 2 ^ (-place).toNat) (den * 2 ^ place.toNat)
    let magnitude := (place + 1074).toNat * 2 ^ 52 + m
    if 2047 * 2 ^ 52 ≤ magnitude then infinity negative else ofFields negative magnitude

/-- The number nearest to a natural. -/
def ofNat (n : Nat) : Binary64 := ofQuotient false n 1

/-- The number nearest to an integer. -/
def ofInt (n : Int) : Binary64 := ofQuotient (decide (n < 0)) n.natAbs 1

/-- The rounded product of finite numbers. -/
def mul (x y : Binary64) : Binary64 :=
  ofQuotient (x.isNegative != y.isNegative)
    (x.numerator * y.numerator) (x.denominator * y.denominator)

/-- The rounded quotient of finite numbers, the second of them not zero. -/
def div (x y : Binary64) : Binary64 :=
  ofQuotient (x.isNegative != y.isNegative)
    (x.numerator * y.denominator) (x.denominator * y.numerator)

/-- A finite number lies between zero and one; a negative zero does too. -/
def inUnitInterval (x : Binary64) : Bool :=
  x.isFinite && decide (x.numerator ≤ x.denominator) && (x.isZero || !x.isNegative)

/-- The natural nearest to the magnitude of a finite number, a half going up. -/
def roundHalfUp (x : Binary64) : Nat :=
  (2 * x.numerator + x.denominator) / (2 * x.denominator)

example : (ofQuotient false 1 10).bits = 0x3FB999999999999A := by decide +kernel
example : ofQuotient true 0 1 = ⟨0x8000000000000000⟩ := by decide +kernel
example : (ofNat (2 ^ 53 + 1)).numerator = 2 ^ 53 := by decide +kernel
example : ofQuotient false 1 (2 ^ 1075) = zero := by decide +kernel
example : ofNat (10 ^ 309) = infinity false := by decide +kernel

end Binary64

end Keymap
