import Keymap.Assembly.Layers
import Keymap.Proofs.Pixels.Tables

/-!
# Reading the rotation table

The table reaches up to the greatest uid in use, and its entry for a uid is the
greatest parameter of a rotation with the uid. Every rotation that is taken into
account keeps these facts, and they leave no choice: the table turns on which rotations
there are, and neither on their order nor on their number.
-/

namespace Keymap.RotationTable

open PixelMap (greatest)

/-- The greater of two parameters is one of them, and neither is above it. -/
theorem max_spec (a b : UInt8) : (max a b = a ∨ max a b = b) ∧ a ≤ max a b ∧ b ≤ max a b := by
  have hmax : max a b = if a ≤ b then b else a := rfl
  rw [hmax]
  split
  next hle => exact ⟨Or.inr rfl, hle, UInt8.le_rfl⟩
  next hle => exact ⟨Or.inl rfl, UInt8.le_rfl, UInt8.le_of_lt (UInt8.not_le.mp hle)⟩

/-- The entry of a uid, zero beyond the table. -/
def entry (table : RotationTable) (uid : Nat) : UInt8 := (table.maxima[uid]?).getD 0

/-- Taking a rotation into account changes only the entry of its uid, which becomes the
greater parameter. -/
theorem entry_record (table : RotationTable) (uid param : UInt8) (i : Nat) :
    (table.record uid param).entry i =
      if uid.toNat = i then max param (table.entry i) else table.entry i := by
  have hpadded : ((table.padded uid.toNat)[i]?).getD 0 = table.entry i := by
    rw [padded, List.getElem?_append, entry]
    split
    next => rfl
    next h =>
      have hbeyond : table.maxima[i]? = none := List.getElem?_eq_none (Nat.le_of_not_lt h)
      rw [hbeyond, List.getElem?_replicate]
      split <;> rfl
  rw [entry, record, List.getElem?_modify, ← hpadded]
  cases hi : (table.padded uid.toNat)[i]? with
  | some old => rfl
  | none =>
    have hne : uid.toNat ≠ i := by
      have hlength := List.getElem?_eq_none_iff.mp hi
      rw [padded, List.length_append, List.length_replicate] at hlength
      omega
    rw [if_neg hne]
    rfl

theorem length_record (table : RotationTable) (uid param : UInt8) :
    (table.record uid param).maxima.length = max table.maxima.length (uid.toNat + 1) := by
  rw [record, List.length_modify, padded, List.length_append, List.length_replicate]
  omega

/-- The table reaches up to the greatest uid in use, and its entries are the greatest
parameters of the rotations. -/
structure Tabulates (table : RotationTable) (rotations : List (UInt8 × UInt8)) : Prop where
  length : table.maxima.length = greatest (rotations.map fun r => r.1.toNat + 1)
  bound : ∀ r ∈ rotations, r.2 ≤ table.entry r.1.toNat
  attained : ∀ uid, table.entry uid = 0 ∨ ∃ r ∈ rotations, r.1.toNat = uid ∧ r.2 = table.entry uid

theorem tabulates_empty : Tabulates .empty [] where
  length := rfl
  bound _ h := absurd h List.not_mem_nil
  attained _ := Or.inl rfl

/-- A rotation that is taken into account is tabulated with those before it. -/
theorem Tabulates.record {table : RotationTable} {rotations : List (UInt8 × UInt8)}
    (h : table.Tabulates rotations) (uid param : UInt8) :
    (table.record uid param).Tabulates (rotations ++ [(uid, param)]) where
  length := by
    rw [length_record, h.length, List.map_append, greatest, greatest, List.foldl_append]
    rfl
  bound r hr := by
    rw [entry_record]
    rcases List.mem_append.mp hr with hr | hr
    · have hle := h.bound r hr
      split
      next => exact UInt8.le_trans hle (max_spec param _).2.2
      next => exact hle
    · rw [List.mem_singleton.mp hr, if_pos rfl]
      exact (max_spec param _).2.1
  attained i := by
    have hbefore : table.entry i = 0 ∨ ∃ r ∈ rotations ++ [(uid, param)],
        r.1.toNat = i ∧ r.2 = table.entry i := by
      rcases h.attained i with hzero | ⟨r, hr, hfound⟩
      · exact Or.inl hzero
      · exact Or.inr ⟨r, List.mem_append_left _ hr, hfound⟩
    rw [entry_record]
    split
    next he =>
      rcases (max_spec param (table.entry i)).1 with hmax | hmax
      · rw [hmax]
        exact Or.inr ⟨(uid, param), List.mem_append_right _ (List.mem_singleton.mpr rfl), he, rfl⟩
      · rw [hmax]
        exact hbefore
    next => exact hbefore

/-- Rotations that are taken into account one behind the other are tabulated with those before
them. -/
theorem Tabulates.foldl {table : RotationTable} {before : List (UInt8 × UInt8)}
    (h : table.Tabulates before) (later : List (UInt8 × UInt8)) :
    (later.foldl (fun table r => table.record r.1 r.2) table).Tabulates (before ++ later) := by
  induction later generalizing table before with
  | nil =>
    rw [List.append_nil]
    exact h
  | cons r rest ih =>
    have hnext := ih (h.record r.1 r.2)
    rwa [List.append_assoc, List.singleton_append] at hnext

/-- The entries for more rotations are not less. -/
theorem Tabulates.entry_le {table other : RotationTable} {rotations others : List (UInt8 × UInt8)}
    (h : table.Tabulates rotations) (ho : other.Tabulates others)
    (hmem : ∀ r ∈ rotations, r ∈ others) (uid : Nat) : table.entry uid ≤ other.entry uid := by
  rcases h.attained uid with hzero | ⟨r, hr, hid, hparam⟩
  · rw [hzero]
    exact UInt8.zero_le
  · rw [← hparam, ← hid]
    exact ho.bound r (hmem r hr)

/-- Two tables of the same rotations are equal, whatever the order and number of these. -/
theorem Tabulates.unique {table other : RotationTable} {rotations others : List (UInt8 × UInt8)}
    (h : table.Tabulates rotations) (ho : other.Tabulates others)
    (hmem : ∀ r, r ∈ rotations ↔ r ∈ others) : table = other := by
  have hentry : ∀ uid, table.entry uid = other.entry uid := fun uid =>
    UInt8.le_antisymm (h.entry_le ho (fun r => (hmem r).mp) uid)
      (ho.entry_le h (fun r => (hmem r).mpr) uid)
  have hlength : table.maxima.length = other.maxima.length := by
    rw [h.length, ho.length]
    refine PixelMap.greatest_congr fun n => ?_
    simp only [List.mem_map, hmem]
  have hmaxima : table.maxima = other.maxima := by
    refine List.ext_getElem hlength fun uid htable hother => ?_
    have he := hentry uid
    rwa [entry, entry, List.getElem?_eq_getElem htable, List.getElem?_eq_getElem hother] at he
  cases table
  cases other
  exact congrArg RotationTable.mk hmaxima

end Keymap.RotationTable

namespace Keymap.Assembly

open Config (Layer Trigger)

/-- The rotation table turns only on which rotations the triggers of layers have. -/
theorem rotationTable_congr {triggers : List Trigger} {layers others : List Layer}
    (h : ∀ r, r ∈ rotations triggers layers ↔ r ∈ rotations triggers others) :
    rotationTable triggers layers = rotationTable triggers others :=
  (RotationTable.tabulates_empty.foldl _).unique (RotationTable.tabulates_empty.foldl _) h

end Keymap.Assembly
