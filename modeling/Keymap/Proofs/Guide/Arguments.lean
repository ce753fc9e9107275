import Keymap.Proofs.Guide.Results
import Mathlib.Data.Int.ModEq

/-!
# Exactness of argument bytes

The bytes of an argument tell its value up to multiples of what as many bytes can
count, and nothing less. So two values that are accepted have the same bytes exactly
where they differ by such a multiple, and the value is read back from its bytes: with
a sign if it is in the range of signed numbers, and without one if it is not negative.
From eight bytes on every value of 64 bits is accepted.
-/

namespace Keymap.Guide

open Assembly (encodeArgument_eq_ok_iff)

/-- The number whose two's complement is given, the least significant byte first. -/
def signedLittleEndian (bytes : List UInt8) : Int :=
  let number : Int := littleEndian bytes
  if 2 * number < 2 ^ (8 * bytes.length) then number else number - 2 ^ (8 * bytes.length)

section Numbers

/-- Bytes of one number are equal if they are as many. -/
theorem eq_of_littleEndian_eq {bytes others : List UInt8} (hlength : bytes.length = others.length)
    (h : littleEndian bytes = littleEndian others) : bytes = others := by
  induction bytes generalizing others with
  | nil => exact (List.length_eq_zero_iff.mp hlength.symm).symm
  | cons byte bytes ih =>
    obtain ⟨other, others, rfl⟩ := List.exists_cons_of_length_eq_add_one hlength.symm
    rw [littleEndian, littleEndian] at h
    have hlt := byte.toNat_lt
    have hlt' := other.toNat_lt
    have hlow : byte.toNat = other.toNat := by omega
    have hhigh : littleEndian bytes = littleEndian others := by omega
    rw [UInt8.toNat_inj.mp hlow, ih (Nat.succ.inj hlength) hhigh]

variable {value other : Int} {width : Nat} {bytes others : List UInt8}

/-- What so many bytes can count is a power of two. -/
private theorem pow_bytes (width : Nat) : (256 : Int) ^ width = 2 ^ (8 * width) := by
  rw [show (256 : Int) = 2 ^ 8 from rfl, ← Int.pow_mul]

/-- The number of the bytes differs from the value by a multiple of what they can count. -/
theorem Represents.modEq (h : Represents value width bytes) :
    (littleEndian bytes : Int) ≡ value [ZMOD 2 ^ (8 * width)] := by
  rw [h.value, pow_bytes]
  exact Int.mod_modEq value _

/-- Values have the same bytes exactly where they differ by a multiple of what the bytes can
count. -/
theorem Represents.eq_iff_modEq (h : Represents value width bytes)
    (h' : Represents other width others) :
    bytes = others ↔ value ≡ other [ZMOD 2 ^ (8 * width)] := by
  constructor
  · rintro rfl
    exact h.modEq.symm.trans h'.modEq
  · intro hmod
    refine eq_of_littleEndian_eq (h.length.trans h'.length.symm) (Int.natCast_inj.mp ?_)
    rw [h.value, h'.value, pow_bytes]
    exact hmod

/-- A value that is not negative and fits is the number of its bytes. -/
theorem Represents.littleEndian_eq (h : Represents value width bytes) (hfits : Fits value width)
    (hnonneg : 0 ≤ value) : (littleEndian bytes : Int) = value := by
  rw [h.value, pow_bytes]
  rw [Fits] at hfits
  split at hfits
  next => rw [hfits, Int.zero_emod]
  next => exact Int.emod_eq_of_lt hnonneg hfits.2

/-- A value in the range of signed numbers is the number whose two's complement is given. -/
theorem Represents.signedLittleEndian_eq (h : Represents value width bytes) (hpos : 1 ≤ width)
    (hlow : -2 ^ (8 * width - 1) ≤ value) (hhigh : value < 2 ^ (8 * width - 1)) :
    signedLittleEndian bytes = value := by
  have hdouble : (2 : Int) ^ (8 * width) = 2 * 2 ^ (8 * width - 1) := by
    rw [show 8 * width = (8 * width - 1) + 1 by omega, Int.pow_succ, Int.mul_comm]
    rfl
  have hvalue := h.value
  rw [pow_bytes, hdouble] at hvalue
  rw [signedLittleEndian, h.length, hdouble]
  rcases Int.lt_or_le value 0 with hneg | hnonneg
  · have hwrapped : value % (2 * 2 ^ (8 * width - 1)) = value + 2 * 2 ^ (8 * width - 1) := by
      rw [← Int.add_emod_right, Int.emod_eq_of_lt (by omega) (by omega)]
    rw [hvalue, hwrapped, if_neg (by omega), Int.add_sub_cancel]
  · have hsame : value % (2 * 2 ^ (8 * width - 1)) = value :=
      Int.emod_eq_of_lt hnonneg (by omega)
    rw [hvalue, hsame, if_pos (by omega)]

example : signedLittleEndian [0xFE, 0xFF] = -2 := by decide

end Numbers

/-- A value of 64 bits fits no bytes if it is zero, up to seven bytes if it is in the range of
signed or of unsigned numbers, and more bytes in any case. -/
theorem fits_int64_iff {value : Int64} {width : UInt8} :
    Fits value.toInt width.toNat ↔
      width = 0 ∧ value = 0 ∨
      (1 ≤ width.toNat ∧ width.toNat ≤ 7) ∧ -2 ^ (8 * width.toNat - 1) ≤ value.toInt ∧
        value.toInt ≤ 2 ^ (8 * width.toNat) - 1 ∨
      8 ≤ width.toNat := by
  have hwidth : width = 0 ↔ width.toNat = 0 := UInt8.toNat_inj.symm
  rw [fits_toInt_iff, hwidth]
  by_cases hzero : width.toNat = 0
  · rw [if_pos (by omega)]
    simp [hzero]
  rw [if_neg (by omega)]
  split
  next hmany => exact iff_of_true trivial (Or.inr (Or.inr (by omega)))
  next hfew => omega

/-- The bytes of a value in some width: the number without a sign and the value differ by a
multiple of what the bytes can count, and both readings give the values in their range. -/
structure Exact (value : Int) (width : Nat) (bytes : List UInt8) : Prop where
  length : bytes.length = width
  modEq : (littleEndian bytes : Int) ≡ value [ZMOD 2 ^ (8 * width)]
  signed : 1 ≤ width → value < 2 ^ (8 * width - 1) → signedLittleEndian bytes = value
  unsigned : 0 ≤ value → (littleEndian bytes : Int) = value

/-- The bytes of a value that fits are exact. -/
theorem exact_lowBytes {value : Int} {width : Nat} (h : Fits value width) :
    Exact value width (lowBytes value width) where
  length := (represents_lowBytes value width).length
  modEq := (represents_lowBytes value width).modEq
  signed hpos hhigh := by
    rw [Fits, if_neg (by omega)] at h
    exact (represents_lowBytes value width).signedLittleEndian_eq hpos h.1 hhigh
  unsigned := (represents_lowBytes value width).littleEndian_eq h

/-- A value of 64 bits is encoded in a width of up to 255 bytes exactly if the width is zero and
so is the value, or the width is up to seven bytes and the value is in the range of signed or
of unsigned numbers, or the width is eight bytes or more. The bytes are exact, and two values
that are encoded have the same bytes exactly where they differ by a multiple of what the bytes
can count. -/
theorem encodeArgument_exact (symbol : String) (width : UInt8) :
    (∀ value : Int64, (∃ bytes, encodeArgument symbol value.toInt width.toNat = .ok bytes) ↔
      width = 0 ∧ value = 0 ∨
      (1 ≤ width.toNat ∧ width.toNat ≤ 7) ∧ -2 ^ (8 * width.toNat - 1) ≤ value.toInt ∧
        value.toInt ≤ 2 ^ (8 * width.toNat) - 1 ∨
      8 ≤ width.toNat) ∧
    (∀ (value : Int64) (bytes : List UInt8),
      encodeArgument symbol value.toInt width.toNat = .ok bytes →
        Exact value.toInt width.toNat bytes) ∧
    ∀ (value other : Int64) (bytes others : List UInt8),
      encodeArgument symbol value.toInt width.toNat = .ok bytes →
      encodeArgument symbol other.toInt width.toNat = .ok others →
        (bytes = others ↔ value.toInt ≡ other.toInt [ZMOD 2 ^ (8 * width.toNat)]) := by
  refine ⟨fun value => ?_, fun value bytes h => ?_, fun value other bytes others h h' => ?_⟩
  · rw [← fits_int64_iff]
    simp only [encodeArgument_eq_ok_iff, exists_and_left, exists_eq, and_true]
  · obtain ⟨hfits, rfl⟩ := encodeArgument_eq_ok_iff.mp h
    exact exact_lowBytes hfits
  · obtain ⟨_, rfl⟩ := encodeArgument_eq_ok_iff.mp h
    obtain ⟨_, rfl⟩ := encodeArgument_eq_ok_iff.mp h'
    exact (represents_lowBytes _ _).eq_iff_modEq (represents_lowBytes _ _)

end Keymap.Guide
