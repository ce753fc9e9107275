/-!
# Digits and numerals

Natural numbers are read from digits in bases up to sixteen, and written in base
sixteen.
-/

namespace Keymap.Text

/-!
## Digits

The values of digits in bases up to sixteen, and the numbers that sequences of
them write.
-/

/-- The value of a decimal digit. -/
def digitValue (c : Char) : Nat := c.toNat - '0'.toNat

/-- The natural number that decimal digits write. -/
def naturalOf (digits : List Char) : Nat :=
  digits.foldl (fun n d => 10 * n + digitValue d) 0

/-- The value of a hexadecimal digit. -/
def hexValue (c : Char) : Option Nat :=
  if c.isDigit then some (digitValue c)
  else if 'a' ≤ c ∧ c ≤ 'f' then some (c.toNat - 'a'.toNat + 10)
  else if 'A' ≤ c ∧ c ≤ 'F' then some (c.toNat - 'A'.toNat + 10)
  else none

/-- The value of a digit in a base of at most sixteen. -/
def valueInBase (base : Nat) (c : Char) : Option Nat :=
  (hexValue c).bind fun value => if value < base then some value else none

/-- The natural number that digits write in a base, if there are any digits and nothing else. -/
def naturalInBase? (base : Nat) (digits : List Char) : Option Nat :=
  if digits.isEmpty then none
  else
    digits.foldlM (fun n d => do
      let value ← valueInBase base d
      return base * n + value) 0

example : naturalInBase? 16 ['1', 'f'] = some 31 := rfl
example : naturalInBase? 8 ['8'] = none := rfl

/-!
## Hexadecimal texts

Numbers in base sixteen with capital letters, filled up with zeros to a least
number of digits.
-/

/-- A hexadecimal digit with capital letters. -/
def hexDigit (n : Nat) : Char := (Nat.digitChar n).toUpper

/-- The hexadecimal digits of a number, at least `width` of them. -/
def hexDigits (width n : Nat) : List Char :=
  let digits := (Nat.toDigits 16 n).map Char.toUpper
  List.replicate (width - digits.length) '0' ++ digits

/-- A number with two hexadecimal digits or more behind `0x`. -/
def hex (n : Nat) : String := String.ofList ('0' :: 'x' :: hexDigits 2 n)

/-- A number with as few hexadecimal digits as it needs behind `0x`. -/
def shortHex (n : Nat) : String := String.ofList ('0' :: 'x' :: hexDigits 1 n)

end Keymap.Text
