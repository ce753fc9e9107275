import Keymap.Config.Trigger
import Keymap.Fault

/-!
# Guides

The firmware reads results and triggers as guides, which are byte streams of
combos. Arguments are part of the calls in result guides.
-/

namespace Keymap.Guide

/-!
## Arguments as bytes

The value of an argument is written in as many bytes as the argument is wide,
the least significant byte first and a negative value in two's complement. A
value is accepted if it fits the width either with or without a sign. The bytes of
a value of 64 bits are those of its word, and beyond them its sign.
-/

/-- The value fits the width as a signed or as an unsigned number. -/
def Fits (value : Int) (width : Nat) : Prop :=
  if width = 0 then value = 0 else -2 ^ (8 * width - 1) ≤ value ∧ value < 2 ^ (8 * width)

instance (value : Int) (width : Nat) : Decidable (Fits value width) := by
  unfold Fits
  infer_instance

/-- The lowest bytes of a value, the least significant one first. -/
def lowBytes (value : Int) : (width : Nat) → List UInt8
  | 0 => []
  | width + 1 => UInt8.ofNat (value % 256).toNat :: lowBytes (value / 256) width

/-- The bytes of a value that fits its width. -/
def encodeArgument (symbol : String) (value : Int) (width : Nat) :
    Except RangeFault (List UInt8) :=
  if Fits value width then .ok (lowBytes value width)
  else .error (.argument symbol value width)

section Words

/-- The bytes of a word of 64 bits, the least significant one first. -/
def wordBytes (value : Int64) : List UInt8 :=
  (List.range 8).map fun i => (value.toUInt64 >>> UInt64.ofNat (8 * i)).toUInt8

/-- The byte that continues a word of 64 bits. -/
def signByte (value : Int64) : UInt8 := if value < 0 then 0xFF else 0x00

/-- No bytes take zero only, eight bytes and more take every value of 64 bits, and the widths
between take the values in the range of signed or of unsigned numbers. -/
theorem fits_toInt_iff {value : Int64} {width : Nat} :
    Fits value.toInt width ↔
      if 8 * width = 0 then value = 0
      else if 64 ≤ 8 * width then True
      else -2 ^ (8 * width - 1) ≤ value.toInt ∧ value.toInt ≤ 2 ^ (8 * width) - 1 := by
  have hvalue : value = 0 ↔ value.toInt = 0 := Int64.toInt_inj.symm
  rw [Fits]
  by_cases hzero : width = 0
  · rw [if_pos hzero, if_pos (by omega), hvalue]
  rw [if_neg hzero, if_neg (by omega)]
  split
  next hmany =>
    have hlow := value.le_toInt
    have hhigh := value.toInt_lt
    have hwide : ∀ bits, 63 ≤ bits → (2 : Int) ^ 63 ≤ 2 ^ bits := fun bits hbits =>
      Int.ofNat_le.mpr (Nat.pow_le_pow_right (by decide) hbits)
    have hsigned := hwide (8 * width - 1) (by omega)
    have hunsigned := hwide (8 * width) (by omega)
    exact iff_of_true ⟨by omega, by omega⟩ trivial
  next => omega

/-- The lowest bytes are as many as asked for. -/
@[simp]
theorem length_lowBytes (value : Int) (width : Nat) : (lowBytes value width).length = width := by
  induction width generalizing value with
  | zero => rfl
  | succ width ih => rw [lowBytes, List.length_cons, ih]

/-- Further bytes are those of what the value is over so many bytes. -/
theorem lowBytes_add (value : Int) (width more : Nat) :
    lowBytes value (width + more) =
      lowBytes value width ++ lowBytes (value / 256 ^ width) more := by
  induction width generalizing value with
  | zero =>
    rw [Nat.zero_add, Int.pow_zero, Int.ediv_one]
    rfl
  | succ width ih =>
    have hquotient : value / 256 / 256 ^ width = value / 256 ^ (width + 1) := by
      rw [Int.pow_succ, Int.mul_comm]
      exact Int.ediv_ediv_of_nonneg (by decide)
    rw [Nat.add_right_comm, lowBytes, lowBytes, ih, hquotient, List.cons_append]

/-- A multiple of what the bytes can count does not change them. -/
theorem lowBytes_add_mul (value factor : Int) (width : Nat) :
    lowBytes (value + 256 ^ width * factor) width = lowBytes value width := by
  induction width generalizing value with
  | zero => rfl
  | succ width ih =>
    have hpow : (256 : Int) ^ (width + 1) * factor = 256 * (256 ^ width * factor) := by
      rw [Int.pow_succ, Int.mul_comm (256 ^ width), Int.mul_assoc]
    rw [lowBytes, lowBytes, hpow, Int.add_mul_emod_self_left,
      Int.add_mul_ediv_left _ _ (by decide), ih]

/-- The byte of a number at a place is found by shifting it. -/
theorem lowBytes_natCast (number width : Nat) :
    lowBytes number width = (List.range width).map fun i => UInt8.ofNat (number >>> (8 * i)) := by
  induction width generalizing number with
  | zero => rfl
  | succ width ih =>
    have hrest : ∀ i, (number / 256) >>> (8 * i) = number >>> (8 * (i + 1)) := fun i => by
      rw [Nat.mul_succ, Nat.add_comm, Nat.shiftRight_add, Nat.shiftRight_eq_div_pow number 8]
    have hfirst : UInt8.ofNat ((number : Int) % 256).toNat = UInt8.ofNat number := by
      rw [← UInt8.toNat_inj, UInt8.toNat_ofNat', UInt8.toNat_ofNat']
      omega
    have hquotient : (number : Int) / 256 = (number / 256 : Nat) := rfl
    rw [lowBytes, hfirst, hquotient, ih, List.range_succ_eq_map, List.map_cons, List.map_map]
    simp only [hrest]
    rfl

/-- A value that is its own quotient has one byte everywhere. -/
theorem lowBytes_eq_replicate {value : Int} (h : value / 256 = value) (width : Nat) :
    lowBytes value width = List.replicate width (UInt8.ofNat (value % 256).toNat) := by
  induction width with
  | zero => rfl
  | succ width ih => rw [lowBytes, h, ih, List.replicate_succ]

/-- The first eight bytes of a value are those of its word. -/
theorem lowBytes_word (value : Int64) : lowBytes value.toInt 8 = wordBytes value := by
  -- With its sign bit set, the word stands for the value and what eight bytes can count.
  have hword : ∃ factor, (value.toUInt64.toNat : Int) = value.toInt + 256 ^ 8 * factor := by
    have hvalue : value.toInt = if 2 * value.toUInt64.toNat < 2 ^ 64 then
        (value.toUInt64.toNat : Int) else value.toUInt64.toNat - 2 ^ 64 :=
      BitVec.toInt_eq_toNat_cond value.toBitVec
    split at hvalue
    · exact ⟨0, by omega⟩
    · exact ⟨1, by omega⟩
  obtain ⟨factor, hfactor⟩ := hword
  rw [← lowBytes_add_mul _ factor, ← hfactor, lowBytes_natCast, wordBytes]
  refine List.map_congr_left fun i hi => ?_
  have hshift : (UInt64.ofNat (8 * i)).toNat % 64 = 8 * i := by
    rw [List.mem_range] at hi
    rw [UInt64.toNat_ofNat']
    omega
  rw [← UInt8.toNat_inj, UInt8.toNat_ofNat', UInt64.toNat_toUInt8, UInt64.toNat_shiftRight, hshift]

/-- Beyond the bytes of its word a value has only its sign. -/
theorem lowBytes_sign (value : Int64) (width : Nat) :
    lowBytes (value.toInt / 256 ^ 8) width = List.replicate width (signByte value) := by
  have hlow := value.le_toInt
  have hhigh := value.toInt_lt
  have hsign : value < 0 ↔ value.toInt < 0 := Int64.lt_iff_toInt_lt
  rw [signByte]
  split
  next hneg =>
    rw [hsign] at hneg
    have hquotient : value.toInt / 256 ^ 8 = -1 := by omega
    rw [hquotient, lowBytes_eq_replicate (by decide)]
    rfl
  next hnonneg =>
    rw [hsign] at hnonneg
    have hquotient : value.toInt / 256 ^ 8 = 0 := by omega
    rw [hquotient, lowBytes_eq_replicate (by decide)]
    rfl

/-- The lowest bytes of a value of 64 bits are those of its word, continued by its sign. -/
theorem lowBytes_toInt (value : Int64) (width : Nat) :
    lowBytes value.toInt width =
      (wordBytes value ++ List.replicate width (signByte value)).take width := by
  rw [← lowBytes_word, ← lowBytes_sign, ← lowBytes_add, Nat.add_comm, lowBytes_add,
    List.take_left' (length_lowBytes ..)]

/-- A value of 64 bits that passes the test of its width has the bytes of its word and sign. -/
theorem encodeArgument_toInt (symbol : String) (value : Int64) (width : Nat) :
    encodeArgument symbol value.toInt width =
      if (if 8 * width = 0 then value = 0
          else if 64 ≤ 8 * width then True
          else -2 ^ (8 * width - 1) ≤ value.toInt ∧ value.toInt ≤ 2 ^ (8 * width) - 1) then
        .ok ((wordBytes value ++ List.replicate width (signByte value)).take width)
      else .error (.argument symbol value.toInt width) := by
  rw [encodeArgument, lowBytes_toInt]
  simp only [fits_toInt_iff]

end Words

/-!
## Result guides

A result guide is the byte form of a result: for every combo its length, then
for every call the index of a capability and the bytes of its arguments; after
the last combo a zero.
-/

/-- The length of a combo as a byte; longer ones are rejected elsewhere. -/
def countByte (length : Nat) : UInt8 := UInt8.ofNat (min length 255)

/-- A call of a capability with the bytes of its arguments. -/
structure Call where
  capability : UInt8
  args : List UInt8
  deriving DecidableEq

namespace Call

/-- The bytes of a call. -/
def bytes (call : Call) : List UInt8 := call.capability :: call.args

end Call

/-- The combos of a result. -/
abbrev ResultCombos := List (List Call)

/-- The bytes of a result guide. -/
def resultBytes (combos : ResultCombos) : List UInt8 :=
  (combos.flatMap fun combo => countByte combo.length :: combo.flatMap Call.bytes) ++ [0]

/-!
## Trigger guides

A trigger guide is the byte form of a trigger: for every combo its length, then
for every element three bytes, its type, the state it waits for, and the low
byte of its uid; after the last combo a zero. A class of triggers with several
banks has one type for every 256 uids.
-/

open Config (Schedule LayerMode AnimationEvent)

/-- The first type of keys. -/
def switchType : UInt8 := 0x00
/-- The type of indicators. -/
def indicatorType : UInt8 := 0x04
/-- The first type of analog keys. -/
def analogType : UInt8 := 0x05
/-- The first type of layers. -/
def layerType : UInt8 := 0x09
/-- The first type of animations. -/
def animationType : UInt8 := 0x0D
/-- The type of rotations. -/
def rotationType : UInt8 := 0x15

/-- The banks of keys, analog keys, layers and animations. -/
def bankCount : Nat := 4

/-- The type of the bank that holds a uid, and the low byte of the uid. -/
def banked (first : UInt8) (banks : Nat) (symbol : String) (uid : Nat) :
    Except RangeFault (UInt8 × UInt8) :=
  if uid / 256 < banks then
    .ok (UInt8.ofNat (min (first.toNat + uid / 256) 255), UInt8.ofNat (uid % 256))
  else .error (.triggerUid symbol uid banks)

/-- The byte of a schedule state. -/
def scheduleByte : Schedule → UInt8
  | .off => 0x00
  | .press => 0x01
  | .hold => 0x02
  | .release => 0x03
  | .uniquePress => 0x04
  | .uniqueRelease => 0x05

/-- The byte of the end of an animation. -/
def doneByte : UInt8 := 0x06
/-- The byte of the repetition of an animation. -/
def repeatByte : UInt8 := 0x07

/-- The flag of a layer mode. -/
def modeFlag : Option LayerMode → UInt8
  | none => 0x00
  | some .shift => 0x10
  | some .latch => 0x20
  | some .lock => 0x40

/-- The state that an element waits for. -/
inductive State where
  | schedule (state : Schedule)
  | layer (state : Schedule) (mode : Option LayerMode)
  | animation (event : AnimationEvent)
  /-- A threshold or parameter. -/
  | raw (byte : UInt8)
  deriving DecidableEq

/-- The byte of a state; a layer mode is a flag on the schedule. -/
def State.byte : State → UInt8
  | .schedule s => scheduleByte s
  | .layer s mode => scheduleByte s ||| modeFlag mode
  | .animation .done => doneByte
  | .animation .repeat => repeatByte
  | .animation .doneOrRepeat => repeatByte ||| doneByte
  | .raw b => b

/-- An element of a trigger guide. -/
structure Condition where
  type : UInt8
  state : State
  uid : UInt8
  deriving DecidableEq

/-- The bytes of an element. -/
def Condition.bytes (condition : Condition) : List UInt8 :=
  [condition.type, condition.state.byte, condition.uid]

/-- The combos of a trigger. -/
abbrev TriggerCombos := List (List Condition)

/-- The bytes of a trigger guide. -/
def triggerBytes (combos : TriggerCombos) : List UInt8 :=
  (combos.flatMap fun combo => countByte combo.length :: combo.flatMap Condition.bytes) ++ [0]

end Keymap.Guide
