import Keymap.Proofs.Gapless
import Keymap.Proofs.Listing.Numbers
import Keymap.Proofs.Pixels.Channels
import Keymap.Proofs.Rearrangement.Sections

/-!
# Entries of the pixel tables

The pixel table and the table of pixels by scan code have no gaps: a number without a
pixel has a blank entry, and a scan code without one the entry zero. The table of cells
leads to the first cell of a pixel, numbered as the display is listed, row behind row;
the numbers are right because all rows of a display that is accepted are equally long.

A pixel whose scan code is not found fault with stands in the table at its scan code and
nowhere else. The scan code zero has no place in the table, and no check says so.
-/

namespace Keymap

open Config (Pixel PixelSection)

/-- An entry of the pixel table has the channels that are declared for the pixel with a
number, as wide as the buffer in which the first of them lies; without channels it is
blank. -/
structure PixelEntry.EntryOf (declared : PixelSection) (id : Nat) (entry : PixelEntry) : Prop where
  channels : ∀ pixel ∈ declared.pixels, pixel.id.toNat = id →
    ∀ first rest, pixel.channels = first :: rest →
      ∃ b buffer offset, declared.buffers[b]? = some buffer ∧ offset < buffer.length.toNat ∧
        Config.channelCount (declared.buffers.take b) + offset = first.toNat ∧
        entry = .channels buffer.width.toNat (pixel.channels.map (·.toNat))
  blank : (∀ pixel ∈ declared.pixels, pixel.id.toNat = id → pixel.channels = []) → entry = .blank

namespace PixelMap

/-- The first pixel that is declared with a scan code. -/
def firstWithScanCode (pixels : List Pixel) (scanCode : Nat) : Option Pixel :=
  pixels.find? fun p => decide (p.scanCode.map (·.toNat) = some scanCode)

/-- A cell is the first one with a pixel; it is zero for no pixel and for one that has no
cell. -/
structure FirstCell (cells : List Nat) (pixel cell : Nat) : Prop where
  first : pixel ≠ 0 → pixel ∈ cells → cells[cell]? = some pixel ∧ ∀ k < cell, cells[k]? ≠ some pixel
  none : pixel = 0 ∨ pixel ∉ cells → cell = 0

/-- The tables of a pixel section have no gaps, and the table of cells leads to the
first cells of the pixels in the display as it is listed. -/
structure TablesOf (declared : PixelSection) (map : PixelMap) : Prop where
  pixels : Gapless (declared.pixels.map (·.id.toNat)) (PixelEntry.EntryOf declared) map.mapping
  scanCodes : Gapless (declared.pixels.filterMap fun p => p.scanCode.map (·.toNat))
    (fun scanCode pixel =>
      pixel = ((firstWithScanCode declared.pixels scanCode).map (·.id.toNat)).getD 0)
    map.scanToPixel
  cells : ∃ cells, Listing.readNumbers (Listing.displayTable map) =
      some ⟨Listing.cellType map, "Pixel_DisplayMapping[]", cells⟩ ∧
    cells = declared.display.flatten.map (·.toNat) ∧
    List.Forall₂ (FirstCell cells) map.scanToPixel map.scanToDisplay

section ScanCodes

variable {pixels : List Pixel}

/-- From one on, the pixel that is found for a scan code is the first one declared with it. -/
theorem lookup_scanned {scanCode : Nat} (h : 1 ≤ scanCode) :
    (scanned pixels).lookup scanCode =
      (firstWithScanCode pixels scanCode).map (·.id.toNat) := by
  induction pixels with
  | nil => rfl
  | cons p rest ih =>
    rw [scanned, firstWithScanCode] at ih ⊢
    cases hcode : p.scanCode with
    | none => simpa [hcode] using ih
    | some code =>
      have hpos : 0 < code ↔ 0 < code.toNat := UInt16.lt_iff_toNat_lt
      by_cases he : code.toNat = scanCode
      · have hcounts : 0 < code := hpos.mpr (he ▸ h)
        simp [hcode, hcounts, he]
      · have hne : (scanCode == code.toNat) = false := beq_false_of_ne (Ne.symm he)
        -- a scan code that is left out, and one that is not asked for, change nothing
        by_cases hcounts : 0 < code
        · simpa [hcode, hcounts, he, hne, List.lookup_cons] using ih
        · simpa [hcode, hcounts, he] using ih

/-- The scan codes that lead to pixels reach as far as all that are declared. -/
theorem greatest_scanned :
    greatest ((scanned pixels).map (·.1)) =
      greatest (pixels.filterMap fun p => p.scanCode.map (·.toNat)) := by
  have hcodes : (pixels.filterMap (·.scanCode)).map (·.toNat) =
      pixels.filterMap fun p => p.scanCode.map (·.toNat) := List.map_filterMap ..
  rw [map_fst_scanned, hcodes]
  apply Nat.le_antisymm
  · exact greatest_le fun n hn => le_greatest (List.mem_of_mem_filter hn)
  · refine greatest_le fun n hn => ?_
    by_cases hpos : 0 < n
    · exact le_greatest (List.mem_filter.mpr ⟨hn, decide_eq_true hpos⟩)
    · rw [Nat.eq_zero_of_not_pos hpos]
      exact Nat.zero_le _

/-- Every scan code has the first pixel that is declared with it, or none. -/
theorem gapless_scanToPixelOf :
    Gapless (pixels.filterMap fun p => p.scanCode.map (·.toNat))
      (fun scanCode pixel =>
        pixel = ((firstWithScanCode pixels scanCode).map (·.id.toNat)).getD 0)
      (scanToPixelOf pixels) := by
  rw [scanToPixelOf, greatest_scanned]
  refine gapless_map_range fun i _ => ?_
  rw [lookup_scanned (Nat.le_add_left 1 i)]

/-- Where numbers and scan codes are distinct, a pixel stands at its scan code, and
nowhere else. -/
theorem getElem?_scanToPixelOf_eq_iff (hids : (pixels.map (·.id)).Nodup)
    (hcodes : ((pixels.filterMap (·.scanCode)).map (·.toNat)).Nodup) {pixel : Pixel}
    (hpixel : pixel ∈ pixels) (hid : pixel.id ≠ 0) {i : Nat} :
    (scanToPixelOf pixels)[i]? = some pixel.id.toNat ↔
      pixel.scanCode.map (·.toNat) = some (i + 1) := by
  constructor
  · intro hentry
    have hpos : pixel.id.toNat ≠ 0 := fun hzero => hid (UInt16.toNat_inj.mp hzero)
    obtain ⟨p, hp, he, hcode⟩ := (declared_of_getElem?_scanToPixelOf hentry).resolve_left hpos
    obtain rfl : p = pixel := List.inj_on_of_nodup_map hids hp hpixel (UInt16.toNat_inj.mp he)
    exact hcode
  · intro hcode
    obtain ⟨code, hsome, he⟩ := Option.map_eq_some_iff.mp hcode
    have hmem : i + 1 ∈ pixels.filterMap fun p => p.scanCode.map (·.toNat) :=
      List.mem_filterMap.mpr ⟨pixel, hpixel, hcode⟩
    obtain ⟨found, hfound, hfirst⟩ := gapless_scanToPixelOf.exists_entry hmem (Nat.le_add_left 1 i)
    have hscanned : (i + 1, pixel.id.toNat) ∈ scanned pixels := by
      have hpos : 0 < code := UInt16.lt_iff_toNat_lt.mpr (he ▸ Nat.zero_lt_succ i)
      refine List.mem_filterMap.mpr ⟨pixel, hpixel, ?_⟩
      simp only [hsome, if_pos hpos, he]
    have hdistinct : ((scanned pixels).map (·.1)).Nodup := by
      rw [map_fst_scanned]
      exact hcodes.sublist List.filter_sublist
    rw [← lookup_scanned (Nat.le_add_left 1 i), (lookup_eq_some_iff_mem hdistinct).mpr hscanned,
      Option.getD_some] at hfirst
    rw [← hfirst]
    exact hfound

end ScanCodes

section Cells

variable {columns pixel row : Nat} {display : List (List Nat)}

/-- Where all rows are equally long, a pixel is found where it is listed first. -/
theorem cellFrom_eq_idxOf?_flatten (h : ∀ cells ∈ display, cells.length = columns) :
    cellFrom columns pixel row display =
      (display.flatten.idxOf? pixel).map (row * columns + ·) := by
  induction display generalizing row with
  | nil => rfl
  | cons cells rest ih =>
    rw [List.forall_mem_cons] at h
    have hsplit : (cells ++ rest.flatten).idxOf? pixel =
        (cells.idxOf? pixel).or ((rest.flatten.idxOf? pixel).map (· + columns)) :=
      h.1 ▸ List.findIdx?_append
    rw [cellFrom, ih h.2, List.flatten_cons, hsplit]
    cases cells.idxOf? pixel with
    | some column => rfl
    | none =>
      rw [Option.none_or, Option.map_map]
      refine congrArg (Option.map · _) (funext fun cell => ?_)
      rw [Nat.succ_mul, Function.comp_apply]
      omega

/-- Where all rows are equally long, the cell of a pixel is the first one with it. -/
theorem firstCell_cellOrZero (h : ∀ cells ∈ display, cells.length = columnsOf display)
    (pixel : Nat) : FirstCell display.flatten pixel (cellOrZero display pixel) := by
  have hcell : pixel ≠ 0 → cellOrZero display pixel = (display.flatten.idxOf? pixel).getD 0 := by
    intro hpixel
    rw [cellOrZero, if_neg hpixel, cellFrom_eq_idxOf?_flatten h]
    simp only [Nat.zero_mul, Nat.zero_add, Option.map_id']
  constructor
  · intro hpixel hmem
    obtain ⟨cell, hfound⟩ := Option.isSome_iff_exists.mp (List.isSome_idxOf?.mpr hmem)
    rw [hcell hpixel, hfound, Option.getD_some]
    obtain ⟨hlt, he, hfirst⟩ := List.idxOf?_eq_some_iff.mp hfound
    refine ⟨List.getElem?_eq_some_iff.mpr ⟨hlt, he⟩, fun k hk hsome => ?_⟩
    obtain ⟨hklt, hke⟩ := List.getElem?_eq_some_iff.mp hsome
    exact hfirst k hk hke
  · rintro (hzero | hmem)
    · rw [cellOrZero, if_pos hzero]
    · by_cases hpixel : pixel = 0
      · rw [cellOrZero, if_pos hpixel]
      · rw [hcell hpixel, List.idxOf?_eq_none_iff.mpr hmem, Option.getD_none]

end Cells

section Pixels

variable {declared : PixelSection}

/-- The entry that a pixel number has in the pixel table. -/
theorem entryOf_firstWithId (hids : (declared.pixels.map (·.id)).Nodup)
    (hchannels : ∀ pixel ∈ declared.pixels, ∀ channel ∈ pixel.channels,
      channel.toNat < Config.channelCount declared.buffers) (id : Nat) :
    PixelEntry.EntryOf declared id
      (entryOf (layOut 0 declared.buffers) (firstWithId declared.pixels id)) := by
  constructor
  · intro pixel hpixel hid first rest hrest
    rw [(firstWithId_eq_some_iff hids).mpr ⟨hpixel, hid⟩]
    have hfirst := hchannels pixel hpixel first (hrest ▸ List.mem_cons_self ..)
    have hplace : ((build declared).locate first.toNat).isSome = true := by
      rw [Option.isSome_iff_ne_none, Ne, locate_build_eq_none_iff (toNat_le_maxChannel first)]
      exact Nat.not_le.mpr hfirst
    obtain ⟨⟨b, offset⟩, hlocate⟩ := Option.isSome_iff_exists.mp hplace
    obtain ⟨buffer, hbuffer, hlt, hsum⟩ :=
      (locate_build_eq_some_iff (toNat_le_maxChannel first)).mp hlocate
    refine ⟨b, buffer, offset, hbuffer, hlt, hsum, ?_⟩
    have hin : locateIn first.toNat 0 (layOut 0 declared.buffers) = some (b, offset) := hlocate
    simp only [entryOf, Option.map_some, hrest, List.map_cons, hin, Option.bind_some,
      getElem?_layOut (Nat.zero_le _), hbuffer, Option.getD_some]
  · intro hblank
    cases hfirst : firstWithId declared.pixels id with
    | none => rfl
    | some pixel =>
      obtain ⟨hpixel, hid⟩ := (firstWithId_eq_some_iff hids).mp hfirst
      rw [entryOf, Option.map_some, hblank pixel hpixel hid]
      rfl

/-- The tables of a valid pixel section have no gaps. -/
theorem tablesOf_build {max : Nat} (h : declared.Valid max) :
    TablesOf declared (build declared) where
  pixels := gapless_map_range fun i _ => entryOf_firstWithId h.distinct h.channels (i + 1)
  scanCodes := gapless_scanToPixelOf
  cells := by
    refine ⟨_, Listing.readNumbers_displayTable _, List.map_flatten.symm, ?_⟩
    refine List.forall₂_map_right_iff.mpr (List.forall₂_same.mpr fun pixel _ => ?_)
    exact firstCell_cellOrZero (length_of_mem_display h.rows) pixel

end Pixels

end PixelMap

namespace Config

variable {config : Config} {declared : PixelSection}

/-- A pixel section without errors has tables without gaps, in which a scan code leads to
the first pixel on it and that pixel to its first cell. -/
theorem tablesOf_of_check (h : config.check.hasErrors = false)
    (hpixels : config.pixels = some declared) :
    ∃ map, (Assembly.build config).pixels = some map ∧ map.TablesOf declared := by
  refine ⟨PixelMap.build declared, ?_, ?_⟩
  · rw [Assembly.pixels_build, hpixels, Option.map_some]
  · exact PixelMap.tablesOf_build ((WellFormed.of_check h).pixels declared hpixels)

/-- Pixels in no order on three rows of the display, with gaps among their numbers and scan
codes, one without channels, two on one scan code, and one on the scan code zero. -/
def mosaic : PixelSection where
  buffers := [⟨3, 8, none, "narrow"⟩, ⟨4, 16, some 3, "wide"⟩]
  pixels := [⟨6, [4, 1], some 7⟩, ⟨2, [], some 3⟩, ⟨3, [2, 6], some 5⟩, ⟨1, [0], some 3⟩,
    ⟨5, [3], some 0⟩]
  display := [[0, 4, 3], [6, 0, 3], [1, 6, 1]]
  ledBufferStruct := none
  frameFormat := {}

/-- Gaps are blank in the tables, two pixels on one scan code leave it to the first, and a
pixel on several cells has the first of them. -/
theorem tablesOf_of_check_mosaic :
    { sample with pixels := some mosaic }.check.hasErrors = false ∧
      ∃ map, (Assembly.build { sample with pixels := some mosaic }).pixels = some map ∧
        map.TablesOf mosaic ∧
        map.mapping = [.channels 8 [0], .blank, .channels 8 [2, 6], .blank, .channels 16 [3],
          .channels 16 [4, 1]] ∧
        map.scanToPixel = [0, 0, 2, 0, 3, 0, 6] ∧ map.scanToDisplay = [0, 0, 0, 0, 2, 0, 3] := by
  have hcheck : { sample with pixels := some mosaic }.check.hasErrors = false := by
    decide +kernel
  obtain ⟨map, hmap, htables⟩ := tablesOf_of_check hcheck rfl
  obtain rfl : PixelMap.build mosaic = map := Option.some.inj hmap
  exact ⟨hcheck, _, hmap, htables, by decide +kernel, by decide +kernel, by decide +kernel⟩

/-- Where nothing is found fault with, a pixel stands in the table of pixels at its scan
code and nowhere else. So a pixel on the scan code zero is not in the table, although no
check warns of it. -/
theorem scanToPixel_eq_iff_of_check (h : config.check = .empty)
    (hpixels : config.pixels = some declared) :
    ∃ map, (Assembly.build config).pixels = some map ∧
      Listing.readNumbers (Listing.scanToPixel map) =
        some ⟨"uint16_t", "Pixel_ScanCodeToPixel[]", map.scanToPixel⟩ ∧
      ∀ pixel ∈ declared.pixels, ∀ i, map.scanToPixel[i]? = some pixel.id.toNat ↔
        pixel.scanCode.map (·.toNat) = some (i + 1) := by
  obtain ⟨hids, hcodes⟩ := distinct_pixels_of_check h hpixels
  have hvalid := (WellFormed.of_check_eq_empty h).pixels declared hpixels
  refine ⟨PixelMap.build declared, ?_, Listing.readNumbers_scanToPixel _, ?_⟩
  · rw [Assembly.pixels_build, hpixels, Option.map_some]
  · intro pixel hpixel i
    exact PixelMap.getElem?_scanToPixelOf_eq_iff hids hcodes hpixel (hvalid.ids pixel hpixel)

/-- Two pixels of which the second is on the scan code zero. -/
def unlit : PixelSection where
  buffers := [⟨2, 8, none, "leds"⟩]
  pixels := [⟨1, [0], some 2⟩, ⟨2, [1], some 0⟩]
  display := [[1, 2]]
  ledBufferStruct := none
  frameFormat := {}

/-- The first pixel stands at its scan code two, and the one on the scan code zero nowhere. -/
theorem scanToPixel_eq_iff_of_check_unlit :
    { sample with pixels := some unlit }.check = .empty ∧
      ∃ map, (Assembly.build { sample with pixels := some unlit }).pixels = some map ∧
        map.scanToPixel[1]? = some 1 ∧ ∀ i : Nat, map.scanToPixel[i]? ≠ some 2 := by
  have hcheck : { sample with pixels := some unlit }.check = .empty := by decide +kernel
  obtain ⟨map, hmap, _, hplaces⟩ := scanToPixel_eq_iff_of_check hcheck rfl
  have hfirst := hplaces ⟨1, [0], some 2⟩ (List.mem_cons_self ..) 1
  have hsecond := hplaces ⟨2, [1], some 0⟩ (List.mem_cons_of_mem _ (List.mem_cons_self ..))
  exact ⟨hcheck, map, hmap, hfirst.mpr rfl, fun i hi => nomatch (hsecond i).mp hi⟩

/-- A configuration that is not found fault with has a pixel with a scan code that is
nowhere in the table of pixels. -/
theorem pixel_on_zero_missing :
    { sample with pixels := some unlit }.check = .empty ∧
      ∃ pixel ∈ unlit.pixels, pixel.scanCode = some 0 ∧
        ∃ map, (Assembly.build { sample with pixels := some unlit }).pixels = some map ∧
          Listing.readNumbers (Listing.scanToPixel map) =
            some ⟨"uint16_t", "Pixel_ScanCodeToPixel[]", [0, 1]⟩ ∧
          pixel.id.toNat ∉ [0, 1] := by
  have hmem : ⟨2, [1], some 0⟩ ∈ unlit.pixels := List.mem_cons_of_mem _ (List.mem_cons_self ..)
  refine ⟨by decide +kernel, _, hmem, rfl, PixelMap.build unlit, rfl, ?_⟩
  exact ⟨Listing.readNumbers_scanToPixel _, by decide⟩

end Config

end Keymap
