import Keymap.Proofs.WellFormed
import Mathlib.Data.List.Chain

/-!
# Acceptance of ranges and references

The checks that look at single numbers and names of a configuration, each of
them clean exactly when the numbers are in range and the names are declared.
-/

namespace Keymap.Validation

/-- The greatest scan code is in order exactly when it fits a byte. -/
theorem clean_maxScanCode_iff {config : Config} :
    Clean (maxScanCode config) ↔ config.maxScanCode.toNat ≤ 255 :=
  Clean.ite_error_iff.trans Nat.not_lt

/-- Every row of the trigger table has a result exactly when none is missing. -/
theorem clean_resultReferences_iff {rows : List TriggerRow} :
    Clean (resultReferences rows) ↔ ∀ row ∈ rows, row.result.isSome = true := by
  rw [resultReferences, Clean.map_error_iff, List.filter_eq_nil_iff]
  simp only [Option.isNone_iff_eq_none, Option.isSome_iff_ne_none]

/-- A word of some bits counts up to its greatest number plus one, within 64 bits. -/
theorem wordLimit_eq_min (bits : Nat) : wordLimit bits = min (2 ^ bits) (2 ^ 64 - 1) := by
  rw [wordLimit]
  split
  next h =>
    have hle : 2 ^ bits ≤ 2 ^ 63 := Nat.pow_le_pow_right (by decide) (by omega)
    omega
  next h =>
    have hle : 2 ^ 64 ≤ 2 ^ bits := Nat.pow_le_pow_right (by decide) (by omega)
    omega

/-- The tables fit the state word exactly when none has more rows than it counts. -/
theorem clean_stateWordSize_iff {assembly : Assembly} :
    Clean (stateWordSize assembly) ↔
      ∀ bits, assembly.config.stateWordSize = some bits →
        assembly.triggers.length ≤ min (2 ^ bits.toNat) (2 ^ 64 - 1) ∧
          assembly.results.length ≤ min (2 ^ bits.toNat) (2 ^ 64 - 1) := by
  rw [stateWordSize]
  cases assembly.config.stateWordSize with
  | none => simp
  | some bits =>
    simp only [tableFinding, Clean.append_iff, Clean.ite_error_iff, Nat.not_lt,
      wordLimit_eq_min, Option.some.injEq, forall_eq']

/-- The offsets are in range exactly when none is beyond the greatest scan code. -/
theorem clean_offsetsBeyond_iff {max board : Nat} {offsets : List Nat} :
    Clean (offsetsBeyond max board offsets) ↔ ∀ offset ∈ offsets, offset ≤ max := by
  induction offsets generalizing board with
  | nil => simp [offsetsBeyond]
  | cons offset rest ih =>
    rw [offsetsBeyond, Clean.append_iff, Clean.ite_error_iff, ih, List.forall_mem_cons,
      Nat.not_lt]

/-- No offset is below the one before exactly when the offsets ascend. -/
theorem clean_offsetsDescending_iff {board : Nat} {offsets : List Nat} :
    Clean (offsetsDescending board offsets) ↔ offsets.Pairwise (· ≤ ·) := by
  rw [← List.isChain_iff_pairwise]
  induction offsets generalizing board with
  | nil => simp [offsetsDescending]
  | cons previous rest ih =>
    cases rest with
    | nil => simp [offsetsDescending]
    | cons offset rest =>
      rw [offsetsDescending, Clean.append_iff, Clean.ite_error_iff, ih, List.isChain_cons_cons,
        Nat.not_lt]

/-- The positions are in order exactly when their scan codes are in range. -/
theorem clean_keyPositions_iff {config : Config} :
    Clean (keyPositions config) ↔
      ∀ position ∈ config.positions,
        1 ≤ position.scanCode.toNat ∧ position.scanCode.toNat ≤ config.maxScanCode.toNat := by
  rw [keyPositions, Clean.map_error_iff, List.filter_eq_nil_iff]
  refine forall₂_congr fun position _ => ?_
  rw [Bool.or_eq_true, decide_eq_true_iff, decide_eq_true_iff]
  omega

end Keymap.Validation
