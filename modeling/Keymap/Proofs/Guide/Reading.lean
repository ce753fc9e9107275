import Keymap.Guide
import Mathlib.Data.List.Basic

/-!
# Reading guides

A reader takes values from the front of some bytes. A guide is read combo by
combo: a count, as many elements as it says, and so on up to a count of zero.
What follows the guide is left over. Nothing in the bytes says how long an
element is, so the elements have a reader of their own.
-/

namespace Keymap.Guide

/-- A reader takes a value of at least one byte from the front of some bytes. -/
structure Reader (α : Type) where
  read : List UInt8 → Option (α × List UInt8)
  shorter : ∀ bytes a rest, read bytes = some (a, rest) → rest.length < bytes.length

namespace Reader

variable (reader : Reader α)

/-- Read as many elements as a count says. -/
def readMany : (count : Nat) → List UInt8 → Option (List α × List UInt8)
  | 0, bytes => some ([], bytes)
  | count + 1, bytes => do
    let (a, bytes) ← reader.read bytes
    let (elements, bytes) ← readMany count bytes
    return (a :: elements, bytes)

/-- Reading elements leaves no more than there was. -/
theorem length_of_readMany {count : Nat} {bytes rest : List UInt8} {elements : List α}
    (h : reader.readMany count bytes = some (elements, rest)) : rest.length ≤ bytes.length := by
  induction count generalizing bytes elements with
  | zero =>
    cases h
    exact Nat.le_refl _
  | succ count ih =>
    simp only [readMany, Option.bind_eq_bind, Option.bind_eq_some_iff, Prod.exists] at h
    obtain ⟨a, after, hread, _, _, hmany, he⟩ := h
    cases he
    exact Nat.le_trans (ih hmany) (Nat.le_of_lt (reader.shorter _ _ _ hread))

/-- Read combos up to a count of zero. -/
def readCombos (bytes : List UInt8) : Option (List (List α) × List UInt8) :=
  match bytes with
  | [] => none
  | count :: bytes =>
    if count = 0 then some ([], bytes)
    else
      match _h : reader.readMany count.toNat bytes with
      | none => none
      | some (combo, rest) =>
        (readCombos rest).map fun (combos, rest) => (combo :: combos, rest)
termination_by bytes.length
decreasing_by
  have hle := reader.length_of_readMany _h
  exact Nat.lt_succ_of_le hle

/-- A count that is not zero is followed by a combo. -/
theorem readCombos_cons {count : UInt8} {bytes rest : List UInt8} {combo : List α}
    (hne : count ≠ 0) (h : reader.readMany count.toNat bytes = some (combo, rest)) :
    reader.readCombos (count :: bytes) =
      (reader.readCombos rest).map fun (combos, rest) => (combo :: combos, rest) := by
  rw [readCombos, if_neg hne]
  split
  next hnone =>
    rw [h] at hnone
    cases hnone
  next hsome =>
    rw [h] at hsome
    cases hsome
    rfl

section RoundTrip

variable (write : β → List UInt8) (value : β → α)

/-- Elements that are written one behind the other are read again. -/
theorem readMany_flatMap {elements : List β}
    (h : ∀ b ∈ elements, ∀ rest, reader.read (write b ++ rest) = some (value b, rest))
    (rest : List UInt8) :
    reader.readMany elements.length (elements.flatMap write ++ rest) =
      some (elements.map value, rest) := by
  induction elements with
  | nil => rfl
  | cons b elements ih =>
    rw [List.forall_mem_cons] at h
    rw [List.length_cons, readMany, List.flatMap_cons, List.append_assoc, h.1]
    simp only [Option.bind_eq_bind, Option.bind_some, ih h.2]
    rfl

/-- The count of a combo that a byte can count is its length. -/
theorem toNat_countByte {length : Nat} (h : length ≤ 255) : (countByte length).toNat = length := by
  rw [countByte, Nat.min_eq_left h, UInt8.toNat_ofNat']
  exact Nat.mod_eq_of_lt (by omega)

/-- Combos of which every one has elements that a byte can count are read
again, and the bytes behind them are left over. -/
theorem readCombos_flatMap {combos : List (List β)}
    (h : ∀ combo ∈ combos, ∀ b ∈ combo, ∀ rest,
      reader.read (write b ++ rest) = some (value b, rest))
    (hsize : ∀ combo ∈ combos, 1 ≤ combo.length ∧ combo.length ≤ 255) (rest : List UInt8) :
    reader.readCombos
        ((combos.flatMap fun combo => countByte combo.length :: combo.flatMap write) ++ [0] ++
          rest) =
      some (combos.map (·.map value), rest) := by
  induction combos with
  | nil =>
    rw [List.flatMap_nil, List.nil_append, List.singleton_append, readCombos, if_pos rfl]
    rfl
  | cons combo combos ih =>
    rw [List.forall_mem_cons] at h hsize
    obtain ⟨⟨hpos, hle⟩, hsizes⟩ := hsize
    have hcount := toNat_countByte hle
    have hne : countByte combo.length ≠ 0 := by
      intro he
      rw [he, UInt8.toNat_zero] at hcount
      omega
    have hcombo := reader.readMany_flatMap write value h.1
      ((combos.flatMap fun combo => countByte combo.length :: combo.flatMap write) ++ [0] ++ rest)
    rw [← hcount] at hcombo
    simp only [List.flatMap_cons, List.cons_append, List.append_assoc] at hcombo ih ⊢
    rw [reader.readCombos_cons hne hcombo, ih h.2 hsizes, Option.map_some, List.map_cons]

end RoundTrip

end Reader

end Keymap.Guide
