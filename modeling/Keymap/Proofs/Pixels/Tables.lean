import Keymap.Proofs.Distinct
import Keymap.Proofs.Gapless
import Keymap.Proofs.WellFormed

/-!
# Pixel tables

What the tables of a pixel section hold: the first channels of buffers that lie
one behind the other, and the buffers that hold a channel. Although first channels
never exceed 32 bits, exactly the channels below the sum of all lengths are found
in some buffer, because a channel has no more than 32 bits itself.
-/

namespace Keymap.PixelMap

open Config (Buffer Pixel PixelSection)

section Buffers

/-- A buffer lies behind the channels of the buffers before it, as far as 32 bits hold them. -/
theorem getElem?_layOut {buffers : List Buffer} {base : Nat} (h : base ≤ maxChannel) {i : Nat} :
    (layOut base buffers)[i]? = buffers[i]?.map fun b =>
      ⟨b.length.toNat, b.width.toNat,
        min (base + Config.channelCount (buffers.take i)) maxChannel, b.buffer⟩ := by
  induction buffers generalizing base i with
  | nil => rfl
  | cons b rest ih =>
    cases i with
    | zero =>
      simp only [layOut, List.getElem?_cons_zero, Option.map_some, List.take_zero,
        Config.channelCount, List.map_nil, List.sum_nil, Nat.add_zero, Nat.min_eq_left h]
    | succ i =>
      rw [layOut, List.getElem?_cons_succ, List.getElem?_cons_succ, ih (by omega),
        List.take_succ_cons]
      refine congrArg (Option.map · rest[i]?) (funext fun buffer => ?_)
      simp only [Config.channelCount, List.map_cons, List.sum_cons, PixelBuffer.mk.injEq, true_and,
        and_true]
      omega

/-- Exactly the channels from the first one up to the sum of the lengths lie in a buffer. -/
theorem isSome_locateIn_layOut {buffers : List Buffer} {base index channel : Nat}
    (h : base ≤ maxChannel) (hchannel : channel ≤ maxChannel) :
    (locateIn channel index (layOut base buffers)).isSome = true ↔
      base ≤ channel ∧ channel < base + Config.channelCount buffers := by
  induction buffers generalizing base index with
  | nil =>
    simp only [layOut, locateIn, Config.channelCount, List.map_nil, List.sum_nil,
      Option.isSome_none, Bool.false_eq_true, false_iff]
    omega
  | cons b rest ih =>
    rw [layOut, locateIn]
    simp only [Config.channelCount, List.map_cons, List.sum_cons] at ih ⊢
    split
    next hin => simp only [Option.isSome_some, true_iff]; omega
    next hout => rw [ih (by omega)]; omega

/-- The place of a channel says which channel it is. -/
theorem eq_of_locateIn_eq {buffers : List PixelBuffer} {index channel other : Nat}
    {place : Nat × Nat} (h : locateIn channel index buffers = some place)
    (ho : locateIn other index buffers = some place) : channel = other := by
  have hspec : ∀ {buffers : List PixelBuffer} {index channel : Nat},
      locateIn channel index buffers = some place → index ≤ place.1 ∧
        ∃ b, buffers[place.1 - index]? = some b ∧ b.base ≤ channel ∧
          place.2 = channel - b.base := by
    intro buffers
    induction buffers with
    | nil => intro index channel h; simp [locateIn] at h
    | cons b rest ih =>
      intro index channel h
      rw [locateIn] at h
      split at h
      next hin =>
        cases h
        exact ⟨Nat.le_refl _, b, by simp, hin.1, rfl⟩
      next =>
        obtain ⟨hle, b', hget, hb⟩ := ih h
        refine ⟨by omega, b', ?_, hb⟩
        rw [show place.1 - index = (place.1 - (index + 1)) + 1 by omega, List.getElem?_cons_succ]
        exact hget
  obtain ⟨_, b, hget, hbase, hplace⟩ := hspec h
  obtain ⟨_, b', hget', hbase', hplace'⟩ := hspec ho
  obtain rfl : b = b' := Option.some.inj (hget.symm.trans hget')
  omega

end Buffers

section Pixels

variable {pixels : List Pixel}

/-- Where numbers are distinct, a pixel is the first one with its number. -/
theorem firstWithId_eq_some_iff (h : (pixels.map (·.id)).Nodup) {id : Nat} {pixel : Pixel} :
    firstWithId pixels id = some pixel ↔ pixel ∈ pixels ∧ pixel.id.toNat = id :=
  find?_eq_some_iff_mem fun _ hp _ hq he =>
    List.inj_on_of_nodup_map h hp hq (UInt16.toNat_inj.mp he)

/-- The pixel table has as many rows as the greatest number of a pixel. -/
theorem totalPixels_build (declared : PixelSection) :
    (build declared).totalPixels = greatest (declared.pixels.map (·.id.toNat)) := by
  rw [totalPixels, build, mappingOf, List.length_map, List.length_range]

/-- The columns of the display are those that are declared. -/
theorem columns_build (declared : PixelSection) : (build declared).columns = declared.columns := by
  rw [build, columnsOf, Config.PixelSection.columns, List.head?_map, Option.map_map]
  simp only [Function.comp_def, List.length_map]

/-- The size of the display is the one that is declared. -/
theorem extent_build (declared : PixelSection) :
    (build declared).extent = ⟨declared.columns, declared.display.length⟩ := by
  rw [extent, columns_build, rows, build, List.length_map]

/-- The pixel on a scan code is one that is declared with it, or none. -/
theorem declared_of_getElem?_scanToPixelOf {i pixel : Nat}
    (h : (scanToPixelOf pixels)[i]? = some pixel) :
    pixel = 0 ∨ ∃ p ∈ pixels, p.id.toNat = pixel ∧ p.scanCode.map (·.toNat) = some (i + 1) := by
  rw [scanToPixelOf, List.getElem?_map, Option.map_eq_some_iff] at h
  obtain ⟨scanCode, hrange, rfl⟩ := h
  obtain ⟨hi, he⟩ := List.getElem?_eq_some_iff.mp hrange
  obtain rfl : i = scanCode := (List.getElem_range hi).symm.trans he
  cases hlookup : (scanned pixels).lookup (i + 1) with
  | none => exact Or.inl rfl
  | some id =>
    obtain ⟨before, after, he, _⟩ := List.lookup_eq_some_iff.mp hlookup
    have hmem : (i + 1, id) ∈ scanned pixels := by
      rw [he]
      exact List.mem_append_right _ (List.mem_cons_self ..)
    obtain ⟨p, hp, hscanned⟩ := List.mem_filterMap.mp hmem
    refine Or.inr ⟨p, hp, ?_⟩
    split at hscanned
    next s hs =>
      split at hscanned
      · obtain ⟨hcode, hid⟩ := Prod.mk.inj (Option.some.inj hscanned)
        exact ⟨hid, by rw [hs, Option.map_some, hcode]⟩
      · cases hscanned
    next => cases hscanned

/-- The pixel on a scan code is one that is declared, or none. -/
theorem mem_scanToPixelOf {pixel : Nat} (h : pixel ∈ scanToPixelOf pixels) :
    pixel = 0 ∨ ∃ p ∈ pixels, p.id.toNat = pixel := by
  obtain ⟨i, hi⟩ := List.getElem?_of_mem h
  exact (declared_of_getElem?_scanToPixelOf hi).imp_right fun ⟨p, hp, hid, _⟩ => ⟨p, hp, hid⟩

/-- Where numbers are distinct, a pixel lies on one scan code at most. -/
theorem eq_of_getElem?_scanToPixelOf (h : (pixels.map (·.id)).Nodup) {i j pixel : Nat}
    (hi : (scanToPixelOf pixels)[i]? = some pixel) (hj : (scanToPixelOf pixels)[j]? = some pixel)
    (hpos : 0 < pixel) : i = j := by
  obtain ⟨p, hp, hid, hcode⟩ :=
    (declared_of_getElem?_scanToPixelOf hi).resolve_left (Nat.ne_of_gt hpos)
  obtain ⟨q, hq, hid', hcode'⟩ :=
    (declared_of_getElem?_scanToPixelOf hj).resolve_left (Nat.ne_of_gt hpos)
  obtain rfl : p = q :=
    List.inj_on_of_nodup_map h hp hq (UInt16.toNat_inj.mp (hid.trans hid'.symm))
  exact Nat.succ.inj (Option.some.inj (hcode.symm.trans hcode'))

section Cells

variable {columns pixel row cell : Nat}

/-- Rows without a pixel are passed over. -/
theorem cellFrom_append {before : List (List Nat)} (h : ∀ cells ∈ before, pixel ∉ cells)
    (rest : List (List Nat)) :
    cellFrom columns pixel row (before ++ rest) =
      cellFrom columns pixel (row + before.length) rest := by
  induction before generalizing row with
  | nil => rfl
  | cons cells before ih =>
    rw [List.forall_mem_cons] at h
    rw [List.cons_append, cellFrom, List.idxOf?_eq_none_iff.mpr h.1, ih h.2, List.length_cons,
      Nat.add_assoc, Nat.add_comm 1]

/-- The cell that is found holds the pixel, and its number counts the cells row by row. -/
theorem cellFrom_eq_some {display : List (List Nat)}
    (h : cellFrom columns pixel row display = some cell) :
    ∃ i j, ∃ cells : List Nat, display[i]? = some cells ∧ cells[j]? = some pixel ∧
      cell = (row + i) * columns + j := by
  induction display generalizing row with
  | nil => cases h
  | cons cells rest ih =>
    rw [cellFrom] at h
    split at h
    next column hcolumn =>
      obtain ⟨hlt, he, _⟩ := List.idxOf?_eq_some_iff.mp hcolumn
      refine ⟨0, column, cells, rfl, ?_, (Option.some.inj h).symm⟩
      rw [List.getElem?_eq_getElem hlt]
      exact congrArg some he
    next =>
      obtain ⟨i, j, found, hrow, hcell, hnumber⟩ := ih h
      refine ⟨i + 1, j, found, hrow, hcell, ?_⟩
      rw [hnumber, Nat.add_assoc, Nat.add_comm 1]

/-- On a display that is a rectangle, a pixel has the number of a cell, or zero. -/
theorem cellOrZero_lt {display : List (List Nat)}
    (h : ∀ cells ∈ display, cells.length = columnsOf display) (pixel : Nat) :
    cellOrZero display pixel = 0 ∨
      cellOrZero display pixel < display.length * columnsOf display := by
  rw [cellOrZero]
  split
  next => exact Or.inl rfl
  next =>
    cases hcell : cellFrom (columnsOf display) pixel 0 display with
    | none => exact Or.inl rfl
    | some cell =>
      obtain ⟨i, j, cells, hi, hj, rfl⟩ := cellFrom_eq_some hcell
      have hrow := h cells (List.mem_of_getElem? hi)
      have hlt := (List.getElem?_eq_some_iff.mp hi).1
      have hcolumn : j < columnsOf display := hrow ▸ (List.getElem?_eq_some_iff.mp hj).1
      refine Or.inr ?_
      calc (0 + i) * columnsOf display + j
          < (0 + i) * columnsOf display + columnsOf display := Nat.add_lt_add_left hcolumn _
        _ = (i + 1) * columnsOf display := by rw [Nat.zero_add, Nat.succ_mul]
        _ ≤ display.length * columnsOf display := Nat.mul_le_mul_right _ hlt

/-- Where the declared rows are equally long, so are those of the tables. -/
theorem length_of_mem_display {declared : PixelSection}
    (h : ∀ row ∈ declared.display, row.length = declared.columns) :
    ∀ cells ∈ (build declared).display, cells.length = (build declared).columns := by
  rw [columns_build]
  refine List.forall_mem_map.mpr fun row hrow => ?_
  rw [List.length_map, h row hrow]

/-- The entries of the table of cells are numbers of cells, or zero. -/
theorem mem_scanToDisplay_build {declared : PixelSection}
    (h : ∀ row ∈ declared.display, row.length = declared.columns)
    (hcell : cell ∈ (build declared).scanToDisplay) :
    cell = 0 ∨ cell < (build declared).rows * (build declared).columns := by
  obtain ⟨pixel, _, rfl⟩ := List.mem_map.mp hcell
  exact cellOrZero_lt (length_of_mem_display h) pixel

end Cells

/-- The channels of the table entry of a pixel are those of the pixel. -/
theorem channelsOf_entryOf (buffers : List PixelBuffer) (pixel : Option Pixel) :
    Validation.channelsOf (entryOf buffers pixel) =
      (pixel.map fun p => p.channels.map (·.toNat)).getD [] := by
  cases pixel with
  | none => rfl
  | some p =>
    simp only [entryOf, Option.map_some, Option.getD_some]
    cases p.channels.map (·.toNat) <;> rfl

/-- The entry of a pixel, by its number, has a channel. -/
def Uses (map : PixelMap) (id channel : Nat) : Prop :=
  ∃ i entry, map.mapping[i]? = some entry ∧ channel ∈ Validation.channelsOf entry ∧ i + 1 = id

/-- The uses of channels are those of the entries of the pixel table. -/
theorem mem_channelUses_iff {map : PixelMap} {id channel : Nat} :
    (id, channel) ∈ Validation.channelUses map ↔ map.Uses id channel := by
  simp only [Validation.channelUses, List.mem_flatMap, List.mem_map, Prod.mk.injEq, Prod.exists,
    List.mem_zipIdx_iff_getElem?]
  constructor
  · rintro ⟨entry, i, hentry, c, hc, hid, rfl⟩
    exact ⟨i, entry, hentry, hc, hid⟩
  · rintro ⟨i, entry, hentry, hc, hid⟩
    exact ⟨entry, i, hentry, channel, hc, hid, rfl⟩

/-- Where numbers are distinct and not zero, the uses of channels are those of the pixels. -/
theorem mem_channelUses_build {declared : PixelSection}
    (h : (declared.pixels.map (·.id)).Nodup) (hzero : ∀ p ∈ declared.pixels, p.id ≠ 0)
    {id channel : Nat} :
    (id, channel) ∈ Validation.channelUses (build declared) ↔
      ∃ p ∈ declared.pixels, p.id.toNat = id ∧ ∃ c ∈ p.channels, c.toNat = channel := by
  have hmapping : ∀ i, i < greatest (declared.pixels.map (·.id.toNat)) →
      (build declared).mapping[i]? =
        some (entryOf (build declared).buffers (firstWithId declared.pixels (i + 1))) := by
    intro i hi
    simp only [build, mappingOf, List.getElem?_map, List.getElem?_range hi, Option.map_some]
  rw [mem_channelUses_iff]
  constructor
  · rintro ⟨i, entry, hentry, hc, rfl⟩
    have hi : i < (build declared).mapping.length := (List.getElem?_eq_some_iff.mp hentry).1
    rw [← totalPixels, totalPixels_build] at hi
    obtain rfl := Option.some.inj ((hmapping i hi).symm.trans hentry)
    rw [channelsOf_entryOf] at hc
    cases hfirst : firstWithId declared.pixels (i + 1) with
    | none => rw [hfirst] at hc; exact absurd hc List.not_mem_nil
    | some p =>
      rw [hfirst] at hc
      obtain ⟨hp, hid⟩ := (firstWithId_eq_some_iff h).mp hfirst
      exact ⟨p, hp, hid, List.mem_map.mp hc⟩
  · rintro ⟨p, hp, rfl, c, hc, rfl⟩
    have hpos : p.id.toNat ≠ 0 := fun he => hzero p hp (UInt16.toNat_inj.mp he)
    have hle : p.id.toNat ≤ greatest (declared.pixels.map (·.id.toNat)) :=
      le_greatest (List.mem_map_of_mem hp)
    have hfirst : firstWithId declared.pixels (p.id.toNat - 1 + 1) = some p :=
      (firstWithId_eq_some_iff h).mpr ⟨hp, by omega⟩
    refine ⟨p.id.toNat - 1, _, hmapping _ (by omega), ?_, by omega⟩
    rw [channelsOf_entryOf, hfirst]
    exact List.mem_map_of_mem hc

end Pixels

end Keymap.PixelMap
