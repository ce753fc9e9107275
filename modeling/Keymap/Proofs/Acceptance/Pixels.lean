import Keymap.Proofs.Pixels.Tables
import Mathlib.Data.List.Pairwise

/-!
# Acceptance of pixels

The checks of the pixel tables find no error exactly when the pixel section is
valid. The channels are followed with the places that are in use already: a
place has one owner, and since a place says which channel it is, two pixels
with one place have a channel in common.
-/

namespace Keymap.Validation

open Config (Pixel PixelSection)
open PixelMap (build layOut locateIn maxChannel greatest)

/-- The numbers of pixels are in order exactly when none is zero and they are fresh. -/
theorem clean_pixelNumbers_iff {seen : List UInt16} {pixels : List Pixel} :
    Clean (pixelNumbers seen pixels) ↔ (∀ p ∈ pixels, p.id ≠ 0) ∧ Fresh (·.id) seen pixels := by
  induction pixels generalizing seen with
  | nil => simp [pixelNumbers]
  | cons p rest ih =>
    rw [pixelNumbers, List.forall_mem_cons, fresh_cons_iff]
    split
    next hzero => simp [hzero]
    next hzero =>
      split
      next hmem => simp [hmem]
      next hmem => rw [ih, and_iff_right hzero, and_iff_right hmem]

section Channels

/-- A channel lies in a buffer, at a place that no other pixel owns. -/
def Placed (map : PixelMap) (owners : List ChannelUse) (use : Nat × Nat) : Prop :=
  ∃ place, map.locate use.2 = some place ∧
    ∀ first, ownerOf owners place.1 place.2 = some first → first = use.1

/-- No two pixels use one channel. -/
def Exclusive (uses : List (Nat × Nat)) : Prop :=
  ∀ a ∈ uses, ∀ b ∈ uses, a.2 = b.2 → a.1 = b.1

private theorem exclusive_cons_iff {use : Nat × Nat} {rest : List (Nat × Nat)} :
    Exclusive (use :: rest) ↔ (∀ a ∈ rest, a.2 = use.2 → a.1 = use.1) ∧ Exclusive rest := by
  constructor
  · intro h
    refine ⟨fun a ha => h a (List.mem_cons_of_mem _ ha) use (List.mem_cons_self ..), ?_⟩
    exact fun a ha b hb => h a (List.mem_cons_of_mem _ ha) b (List.mem_cons_of_mem _ hb)
  · rintro ⟨hfirst, hrest⟩ a ha b hb hab
    rcases List.mem_cons.mp ha with rfl | har <;> rcases List.mem_cons.mp hb with rfl | hbr
    · rfl
    · exact (hfirst b hbr hab.symm).symm
    · exact hfirst a har hab
    · exact hrest a har b hbr hab

private theorem ownerOf_cons (owners : List ChannelUse) (use : ChannelUse) (place : Nat × Nat) :
    ownerOf (use :: owners) place.1 place.2 =
      if place = (use.buffer, use.offset) then some use.pixel
      else ownerOf owners place.1 place.2 := by
  rw [ownerOf, List.find?_cons]
  by_cases h : use.buffer = place.1 ∧ use.offset = place.2
  · rw [decide_eq_true h, if_pos (Prod.ext h.1.symm h.2.symm), Option.map_some]
  · rw [decide_eq_false h, if_neg fun he => h (by rw [he]; exact ⟨rfl, rfl⟩)]
    rfl

/-- The owner of a place is the only pixel with its channel. -/
private theorem Placed.eq_owner {map : PixelMap} {owners : List ChannelUse} {use : Nat × Nat}
    {place : Nat × Nat} {first : Nat} (h : Placed map owners use)
    (hplace : map.locate use.2 = some place)
    (hfirst : ownerOf owners place.1 place.2 = some first) : use.1 = first := by
  obtain ⟨_, hsome, hown⟩ := h
  obtain rfl := Option.some.inj (hplace.symm.trans hsome)
  exact (hown first hfirst).symm

/-- After a pixel took a new place, the uses that can be placed are those that
could be before, if they are uses of other channels or of that pixel. -/
private theorem placed_cons_iff {map : PixelMap} {owners : List ChannelUse}
    {pixel channel buffer offset : Nat} (hplace : map.locate channel = some (buffer, offset))
    (howner : ownerOf owners buffer offset = none) {use : Nat × Nat} :
    Placed map (⟨buffer, offset, pixel⟩ :: owners) use ↔
      Placed map owners use ∧ (use.2 = channel → use.1 = pixel) := by
  constructor
  · intro h
    refine ⟨?_, fun hc => h.eq_owner (hc ▸ hplace) (by rw [ownerOf_cons, if_pos rfl])⟩
    obtain ⟨place, hsome, hown⟩ := h
    refine ⟨place, hsome, fun first hf => hown first ?_⟩
    rw [ownerOf_cons, if_neg, hf]
    rintro rfl
    rw [howner] at hf
    cases hf
  · rintro ⟨⟨place, hsome, hown⟩, hpixel⟩
    refine ⟨place, hsome, fun first hf => ?_⟩
    rw [ownerOf_cons] at hf
    split at hf
    next he =>
      cases hf
      exact (hpixel (PixelMap.eq_of_locateIn_eq (he ▸ hsome) hplace)).symm
    next => exact hown first hf

/-- The uses of channels are in order exactly when all can be placed and no two
pixels use one channel. -/
theorem clean_channelFindings_iff {map : PixelMap} {owners : List ChannelUse}
    {uses : List (Nat × Nat)} :
    Clean (channelFindings map owners uses) ↔
      (∀ use ∈ uses, Placed map owners use) ∧ Exclusive uses := by
  induction uses generalizing owners with
  | nil => simp [channelFindings, Exclusive]
  | cons use rest ih =>
    rw [List.forall_mem_cons, exclusive_cons_iff, channelFindings]
    split
    next hplace =>
      simp only [Clean.cons_iff, Finding.isError_error, Bool.true_eq_false, false_and, false_iff]
      rintro ⟨⟨⟨place, hsome, _⟩, _⟩, _⟩
      rw [hplace] at hsome
      cases hsome
    next buffer offset hplace =>
      split
      next howner =>
        have hhead : Placed map owners use := by
          refine ⟨_, hplace, fun first hf => ?_⟩
          rw [howner] at hf
          cases hf
        rw [ih]
        simp only [placed_cons_iff hplace howner, hhead, true_and, imp_and, forall_and, and_assoc]
      next first howner =>
        rw [Clean.append_iff, Clean.ite_not_error_iff, ih]
        constructor
        · rintro ⟨rfl, hrest, hexclusive⟩
          refine ⟨⟨⟨_, hplace, fun other ho => ?_⟩, hrest⟩, fun a ha hc => ?_, hexclusive⟩
          · exact Option.some.inj (ho.symm.trans howner)
          · exact (hrest a ha).eq_owner (hc ▸ hplace) howner
        · rintro ⟨⟨hhead, hrest⟩, _, hexclusive⟩
          exact ⟨(hhead.eq_owner hplace howner).symm, hrest, hexclusive⟩

/-- The channels of a pixel section are in order exactly when all lie in buffers
and no two pixels share one. -/
theorem clean_pixelChannels_iff {declared : PixelSection}
    (h : (declared.pixels.map (·.id)).Nodup) (hzero : ∀ p ∈ declared.pixels, p.id ≠ 0) :
    Clean (pixelChannels (build declared)) ↔
      (∀ p ∈ declared.pixels, ∀ c ∈ p.channels,
        c.toNat < Config.channelCount declared.buffers) ∧
      declared.pixels.Pairwise fun p q => ∀ c ∈ p.channels, c ∉ q.channels := by
  have hlocated : ∀ c : UInt32, (∃ place, (build declared).locate c.toNat = some place) ↔
      c.toNat < Config.channelCount declared.buffers := by
    intro c
    have hc : c.toNat ≤ maxChannel := Nat.le_sub_one_of_lt c.toNat_lt
    rw [← Option.isSome_iff_exists, PixelMap.locate, build,
      PixelMap.isSome_locateIn_layOut (Nat.zero_le _) hc]
    omega
  rw [pixelChannels, clean_channelFindings_iff]
  constructor
  · rintro ⟨hplaced, hexclusive⟩
    refine ⟨fun p hp c hc => ?_, ?_⟩
    · obtain ⟨place, hplace, _⟩ :=
        hplaced (p.id.toNat, c.toNat) ((PixelMap.mem_channelUses_build h hzero).mpr
          ⟨p, hp, rfl, c, hc, rfl⟩)
      exact (hlocated c).mp ⟨place, hplace⟩
    · refine List.Pairwise.imp_of_mem (fun {p q} hp hq hne c hc hcq => ?_) (List.pairwise_map.mp h)
      have hid := hexclusive (p.id.toNat, c.toNat)
        ((PixelMap.mem_channelUses_build h hzero).mpr ⟨p, hp, rfl, c, hc, rfl⟩)
        (q.id.toNat, c.toNat)
        ((PixelMap.mem_channelUses_build h hzero).mpr ⟨q, hq, rfl, c, hcq, rfl⟩) rfl
      exact hne (UInt16.toNat_inj.mp hid)
  · rintro ⟨hin, hdisjoint⟩
    have hsymm : Std.Symm fun p q : Pixel => ∀ c ∈ p.channels, c ∉ q.channels :=
      ⟨fun _ _ hd c hc hc' => hd c hc' hc⟩
    refine ⟨?_, ?_⟩
    · rintro ⟨id, channel⟩ huse
      obtain ⟨p, hp, rfl, c, hc, rfl⟩ := (PixelMap.mem_channelUses_build h hzero).mp huse
      obtain ⟨place, hplace⟩ := (hlocated c).mpr (hin p hp c hc)
      exact ⟨place, hplace, by simp [ownerOf]⟩
    · rintro ⟨id, channel⟩ hid ⟨other, channel'⟩ hother (rfl : channel = channel')
      obtain ⟨p, hp, rfl, c, hc, rfl⟩ := (PixelMap.mem_channelUses_build h hzero).mp hid
      obtain ⟨q, hq, rfl, c', hc', he⟩ := (PixelMap.mem_channelUses_build h hzero).mp hother
      obtain rfl : c' = c := UInt32.toNat_inj.mp he
      by_contra hne
      have hpq : p ≠ q := fun he => hne (congrArg (fun p => p.id.toNat) he)
      exact hdisjoint.forall hp hq hpq c' hc hc'

end Channels

/-- The layout is as declared exactly when every declared first channel is the
number of the channels before the buffer. -/
theorem clean_bufferLayout_iff {declared : PixelSection} :
    Clean (bufferLayout declared (build declared)) ↔
      ∀ i buffer base, declared.buffers[i]? = some buffer → buffer.base = some base →
        base.toNat = min (Config.channelCount (declared.buffers.take i)) (2 ^ 32 - 1) := by
  have hplaced : ∀ i buffer placed, (declared.buffers.zip (build declared).buffers)[i]? =
      some (buffer, placed) ↔ declared.buffers[i]? = some buffer ∧
        (⟨buffer.length.toNat, buffer.width.toNat,
          min (Config.channelCount (declared.buffers.take i)) maxChannel, buffer.buffer⟩ :
            PixelBuffer) = placed := by
    intro i buffer placed
    rw [List.getElem?_zip_eq_some, build, PixelMap.getElem?_layOut (Nat.zero_le _), Nat.zero_add]
    refine and_congr_right fun hb => ?_
    rw [hb, Option.map_some, Option.some.injEq]
  simp only [bufferLayout, Clean.flatMap_iff, Prod.forall, List.mem_zipIdx_iff_getElem?, hplaced]
  constructor
  · intro h i buffer base hbuffer hbase
    have hclean := h buffer _ i ⟨hbuffer, rfl⟩
    rw [hbase] at hclean
    exact Clean.ite_not_error_iff.mp hclean
  · rintro h buffer _ i ⟨hbuffer, rfl⟩
    split
    next => exact Clean.nil
    next base hbase => exact Clean.ite_not_error_iff.mpr (h i buffer base hbuffer hbase)

/-- The scan codes of pixels are in order exactly when none is beyond the greatest one. -/
theorem clean_pixelScanCodes_iff {max : Nat} {owners : List (Nat × Nat)} {pixels : List Pixel} :
    Clean (pixelScanCodes max owners pixels) ↔
      ∀ p ∈ pixels, ∀ scanCode, p.scanCode = some scanCode → scanCode.toNat ≤ max := by
  induction pixels generalizing owners with
  | nil => simp [pixelScanCodes]
  | cons p rest ih =>
    rw [pixelScanCodes, List.forall_mem_cons]
    split
    next hcode => simp [hcode, ih]
    next code hcode =>
      have hhead : (∀ scanCode, p.scanCode = some scanCode → scanCode.toNat ≤ max) ↔
          code.toNat ≤ max := by
        simp only [hcode, Option.some.injEq, forall_eq']
      dsimp only
      -- a second pixel on a scan code is only a warning
      split <;>
        simp only [Clean.append_iff, Clean.cons_iff, Clean.ite_error_iff,
          Finding.isError_warning, true_and, ih, hhead, Nat.not_lt]

/-- A key has a pixel of the pixel table, or none. -/
theorem clean_scannedPixels (declared : PixelSection) : Clean (scannedPixels (build declared)) := by
  rw [scannedPixels, Clean.flatMap_iff]
  rintro ⟨pixel, i⟩ hentry
  have hpixel : pixel ∈ PixelMap.scanToPixelOf declared.pixels :=
    List.fst_mem_of_mem_zipIdx hentry
  refine Clean.ite_error_iff.mpr (Nat.not_lt.mpr ?_)
  rw [PixelMap.totalPixels_build]
  rcases PixelMap.mem_scanToPixelOf hpixel with rfl | ⟨p, hp, rfl⟩
  · exact Nat.zero_le _
  · exact PixelMap.le_greatest (List.mem_map_of_mem hp)

/-- A cell is in the pixel table exactly when it is empty or some pixel has no lower number. -/
private theorem cell_le_iff {pixels : List Pixel} {cell : UInt16} :
    cell.toNat ≤ min (greatest (pixels.map (·.id.toNat))) 65535 ↔
      cell = 0 ∨ ∃ p ∈ pixels, cell ≤ p.id := by
  have hcell : cell.toNat < 2 ^ 16 := cell.toNat_lt
  constructor
  · intro hle
    rcases PixelMap.greatest_mem (pixels.map (·.id.toNat)) with hzero | hmem
    · left
      rw [hzero] at hle
      exact UInt16.toNat_inj.mp (by rw [UInt16.toNat_zero]; omega)
    · obtain ⟨p, hp, he⟩ := List.mem_map.mp hmem
      exact Or.inr ⟨p, hp, UInt16.le_iff_toNat_le.mpr (by omega)⟩
  · rintro (rfl | ⟨p, hp, hle⟩)
    · exact Nat.zero_le _
    · have hgreatest : p.id.toNat ≤ greatest (pixels.map (·.id.toNat)) :=
        PixelMap.le_greatest (List.mem_map_of_mem hp)
      have := UInt16.le_iff_toNat_le.mp hle
      omega

/-- The display is in order exactly when it is a rectangle of cells that are
empty or have no greater number than some pixel. -/
theorem clean_displayMap_iff {declared : PixelSection} :
    Clean (displayMap (build declared)) ↔
      (∀ row ∈ declared.display, row.length = declared.columns) ∧
      ∀ row ∈ declared.display, ∀ cell ∈ row,
        cell = 0 ∨ ∃ pixel ∈ declared.pixels, cell ≤ pixel.id := by
  have hcells : ∀ maxPixel row (cells : List Nat),
      Clean (cellFindings maxPixel row cells) ↔ ∀ cell ∈ cells, cell ≤ maxPixel := by
    intro maxPixel row cells
    exact Clean.zipIdx_flatMap_iff fun _ _ => Clean.ite_error_iff.trans Nat.not_lt
  have hrow : ∀ (cells : List Nat) row, Clean ((if cells.length = (build declared).columns then []
      else [.error .displayMap "Pixel_DisplayMapping"
        (.shape (.displayRow row (build declared).columns cells.length))]) ++
          cellFindings (min (build declared).totalPixels 65535) row cells) ↔
      cells.length = declared.columns ∧
        ∀ cell ∈ cells, cell ≤ min (build declared).totalPixels 65535 := by
    intro cells row
    rw [Clean.append_iff, Clean.ite_not_error_iff, hcells, PixelMap.columns_build]
  have hdisplay : (build declared).display =
      declared.display.map fun row => row.map (·.toNat) := rfl
  rw [displayMap, Clean.zipIdx_flatMap_iff hrow, hdisplay, List.forall_mem_map]
  simp only [List.length_map, List.forall_mem_map, PixelMap.totalPixels_build, cell_le_iff]
  exact ⟨fun h => ⟨fun row hr => (h row hr).1, fun row hr => (h row hr).2⟩,
    fun h row hr => ⟨h.1 row hr, h.2 row hr⟩⟩

/-- The checks of a pixel section find no error exactly when it is valid. -/
theorem clean_pixelSection_iff {max : Nat} {declared : PixelSection} :
    Clean (pixelNumbers [] declared.pixels) ∧
        Clean (pixelChannels (build declared) ++ bufferLayout declared (build declared) ++
          pixelScanCodes max [] declared.pixels ++ scannedPixels (build declared) ++
          displayMap (build declared)) ↔
      declared.Valid max := by
  simp only [Clean.append_iff, clean_pixelNumbers_iff, clean_bufferLayout_iff,
    clean_pixelScanCodes_iff, clean_scannedPixels, clean_displayMap_iff, and_true]
  constructor
  · rintro ⟨⟨hzero, hfresh⟩, ⟨⟨hchannels, hbases⟩, hcodes⟩, hrows, hcells⟩
    have hn := fresh_nil_iff.mp hfresh
    obtain ⟨hin, hdisjoint⟩ := (clean_pixelChannels_iff hn hzero).mp hchannels
    exact ⟨hzero, hn, hin, hdisjoint, hbases, hcodes, hrows, hcells⟩
  · intro h
    have hchannels := (clean_pixelChannels_iff h.distinct h.ids).mpr ⟨h.channels, h.disjoint⟩
    exact ⟨⟨h.ids, fresh_nil_iff.mpr h.distinct⟩,
      ⟨⟨hchannels, h.bases⟩, h.scanCodes⟩, h.rows, h.cells⟩

/-- The pixel checks of a configuration find no error exactly when its pixel section is valid. -/
theorem clean_pixels_iff {config : Config} :
    Clean (pixelIndices config) ∧ Clean (pixels (Assembly.build config)) ↔
      ∀ pixels, config.pixels = some pixels → pixels.Valid config.maxScanCode.toNat := by
  rw [pixelIndices, pixels, Assembly.pixels_build, Assembly.config_build]
  cases hp : config.pixels with
  | none => simp
  | some declared =>
    simp only [Option.map_some, Option.some.injEq, forall_eq']
    exact clean_pixelSection_iff

end Keymap.Validation
