import Keymap.Proofs.Acceptance
import Keymap.Proofs.Generation
import Keymap.Proofs.Listing.Numbers

/-!
# Values and the types of their tables

A value that does not fit the elements of its table is cut off where the listing is
compiled. For every configuration that has outputs the values of the offsets, the
rotations, the display and the pixels by scan code fit their types. The cells by scan
code are numbers of cells, so that they fit as long as the display has no more cells
than two bytes can count; nothing checks that it has not.
-/

namespace Keymap

open Listing (readNumbers cellType)

/-- The values of the tables fit the types with which they are listed; those of the
cells by scan code do so where the cells of the display are few enough. -/
structure Assembly.ValuesFit (assembly : Assembly) : Prop where
  offsets : assembly.offsets ≠ [] → ∃ values,
    readNumbers (Listing.offsetTable assembly) =
        some ⟨"uint8_t", "InterconnectOffsetList[]", values⟩ ∧
      ∀ value ∈ values, value ≤ 0xFF
  rotations : ∃ values,
    readNumbers (Listing.rotationTable assembly) =
        some ⟨"uint8_t", "Rotation_MaxParameter[]", values⟩ ∧
      ∀ value ∈ values, value ≤ 0xFF
  display : ∀ map, assembly.pixels = some map → ∃ values,
    readNumbers (Listing.displayTable map) = some ⟨cellType map, "Pixel_DisplayMapping[]", values⟩ ∧
      (cellType map = "uint8_t" ∧ (∀ value ∈ values, value ≤ 0xFF) ∨
        cellType map = "uint16_t" ∧ ∀ value ∈ values, value ≤ 0xFFFF)
  scanToPixel : ∀ map, assembly.pixels = some map → ∃ values,
    readNumbers (Listing.scanToPixel map) =
        some ⟨"uint16_t", "Pixel_ScanCodeToPixel[]", values⟩ ∧
      ∀ value ∈ values, value ≤ 0xFFFF
  scanToDisplay : ∀ map, assembly.pixels = some map → ∃ values,
    readNumbers (Listing.scanToDisplay map) =
        some ⟨"uint16_t", "Pixel_ScanCodeToDisplay[]", values⟩ ∧
      (∀ value ∈ values, value = 0 ∨ value < map.rows * map.columns) ∧
      (map.rows * map.columns ≤ 0x10000 → ∀ value ∈ values, value ≤ 0xFFFF)

namespace PixelMap

/-- The cells of a declared display have two bytes, and one byte each unless the
display is wide. -/
theorem display_build_le (declared : Config.PixelSection) :
    (∀ cell ∈ (build declared).display.flatten, cell ≤ 0xFFFF) ∧
      ((build declared).wideDisplay = false →
        ∀ cell ∈ (build declared).display.flatten, cell ≤ 0xFF) := by
  constructor
  · intro cell hcell
    obtain ⟨row, hrow, hmem⟩ := List.mem_flatten.mp hcell
    obtain ⟨cells, _, rfl⟩ := List.mem_map.mp hrow
    obtain ⟨value, _, rfl⟩ := List.mem_map.mp hmem
    have hlt := value.toNat_lt
    omega
  · intro hnarrow cell hcell
    obtain ⟨row, hrow, hmem⟩ := List.mem_flatten.mp hcell
    have hrows := List.any_eq_false.mp hnarrow row hrow
    rw [Bool.not_eq_true] at hrows
    have hle := List.any_eq_false.mp hrows cell hmem
    simpa using hle

/-- The pixels by scan code have two bytes. -/
theorem scanToPixel_build_le (declared : Config.PixelSection) :
    ∀ pixel ∈ (build declared).scanToPixel, pixel ≤ 0xFFFF := by
  intro pixel hpixel
  rcases mem_scanToPixelOf hpixel with rfl | ⟨p, _, rfl⟩
  · exact Nat.zero_le _
  · have hlt := p.id.toNat_lt
    omega

end PixelMap

namespace Config

/-- The values of a well-formed configuration fit the types of their tables. -/
theorem WellFormed.valuesFit {config : Config} (h : config.WellFormed) :
    (Assembly.build config).ValuesFit where
  offsets hne := by
    refine ⟨config.offsets, Listing.readNumbers_offsetTable hne, fun offset hoffset => ?_⟩
    exact Nat.le_trans (h.offsets offset hoffset) h.maxScanCode
  rotations := by
    refine ⟨_, Listing.readNumbers_rotationTable _, List.forall_mem_map.mpr fun max _ => ?_⟩
    have hlt := max.toNat_lt
    omega
  display map hmap := by
    obtain ⟨declared, _, rfl⟩ := Option.map_eq_some_iff.mp hmap
    refine ⟨_, Listing.readNumbers_displayTable _, ?_⟩
    have hle := PixelMap.display_build_le declared
    cases hw : (PixelMap.build declared).wideDisplay with
    | false => exact Or.inl ⟨by rw [cellType, hw]; rfl, hle.2 hw⟩
    | true => exact Or.inr ⟨by rw [cellType, hw]; rfl, hle.1⟩
  scanToPixel map hmap := by
    obtain ⟨declared, _, rfl⟩ := Option.map_eq_some_iff.mp hmap
    exact ⟨_, Listing.readNumbers_scanToPixel _, PixelMap.scanToPixel_build_le declared⟩
  scanToDisplay map hmap := by
    obtain ⟨declared, hdeclared, rfl⟩ := Option.map_eq_some_iff.mp hmap
    have hcells : ∀ cell ∈ (PixelMap.build declared).scanToDisplay, cell = 0 ∨
        cell < (PixelMap.build declared).rows * (PixelMap.build declared).columns :=
      fun _ hcell => PixelMap.mem_scanToDisplay_build (h.pixels declared hdeclared).rows hcell
    refine ⟨_, Listing.readNumbers_scanToDisplay _, hcells, fun hfew cell hcell => ?_⟩
    have hcell := hcells cell hcell
    omega

/-- Every configuration that has outputs has values that fit the types of their tables,
the cells by scan code provided that two bytes count the cells of the display. -/
theorem valuesFit_of_generate {config : Config} {templates : Templates} {outputs : Outputs}
    (h : config.generate templates = .ok outputs) : (Assembly.build config).ValuesFit :=
  (WellFormed.of_check (generate_eq_ok_iff.mp h).1).valuesFit

/-- A key with a light, which stands on a display of some rows of 256 cells in the
first cell of a row behind them. -/
def lights (rows : Nat) : PixelSection where
  buffers := [⟨1, 8, none, "leds"⟩]
  pixels := [⟨1, [0], some 1⟩]
  display := List.replicate rows (List.replicate 256 0) ++ [1 :: List.replicate 255 0]
  ledBufferStruct := none
  frameFormat := {}

/-- Two boards with such a light. -/
def lit (rows : Nat) : Config :=
  { Config.empty "lit" 8 with interconnectOffsets := [0, 4], pixels := some (lights rows) }

/-- The display of the lights has 256 columns. -/
theorem length_of_mem_lights {rows : Nat} : ∀ row ∈ (lights rows).display, row.length = 256 := by
  intro row hrow
  rcases List.mem_append.mp hrow with hrow | hrow
  · rw [List.eq_of_mem_replicate hrow, List.length_replicate]
  · rw [List.mem_singleton.mp hrow, List.length_cons, List.length_replicate]

/-- The first row tells that the display has 256 columns. -/
theorem columns_lights (rows : Nat) : (lights rows).columns = 256 := by
  rw [PixelSection.columns]
  cases hd : (lights rows).display with
  | nil => exact absurd (List.append_eq_nil_iff.mp hd).2 (List.cons_ne_nil _ _)
  | cons row rest =>
    rw [List.head?_cons, Option.map_some, Option.getD_some]
    exact length_of_mem_lights row (hd ▸ List.mem_cons_self ..)

/-- The lights are valid, however many rows the display has. -/
theorem valid_lights (rows : Nat) : (lights rows).Valid 8 where
  ids := by
    show ∀ pixel ∈ [(⟨1, [0], some 1⟩ : Pixel)], pixel.id ≠ 0
    decide
  distinct := List.nodup_singleton _
  channels pixel hpixel channel hchannel := by
    obtain rfl := List.mem_singleton.mp hpixel
    obtain rfl := List.mem_singleton.mp hchannel
    have hcount : channelCount (lights rows).buffers = 1 := rfl
    rw [hcount]
    decide
  disjoint := List.pairwise_singleton _ _
  bases i buffer base hbuffer hbase := by
    obtain rfl := List.mem_singleton.mp (List.mem_of_getElem? hbuffer)
    cases hbase
  scanCodes pixel hpixel scanCode hcode := by
    obtain rfl := List.mem_singleton.mp hpixel
    obtain rfl := Option.some.inj hcode
    decide
  rows row hrow := by rw [columns_lights, length_of_mem_lights row hrow]
  cells row hrow cell hcell := by
    rcases List.mem_append.mp hrow with hrow | hrow
    · rw [List.eq_of_mem_replicate hrow] at hcell
      exact Or.inl (List.eq_of_mem_replicate hcell)
    · rw [List.mem_singleton.mp hrow] at hcell
      rcases List.mem_cons.mp hcell with rfl | hcell
      · exact Or.inr ⟨_, List.mem_singleton.mpr rfl, by decide⟩
      · exact Or.inl (List.eq_of_mem_replicate hcell)

/-- The boards with the light are well formed, however many rows the display has. -/
theorem wellFormed_lit (rows : Nat) : (lit rows).WellFormed where
  capabilityNames := List.nodup_nil
  resultNames := List.nodup_nil
  triggerNames := List.nodup_nil
  settingsNames := List.nodup_nil
  maxScanCode := by
    show (8 : UInt16).toNat ≤ 255
    decide
  capabilityCount := Nat.zero_le _
  results _ h := absurd h List.not_mem_nil
  triggers _ h := absurd h List.not_mem_nil
  layers layer hlayer name hname := by
    obtain rfl := List.mem_singleton.mp hlayer
    exact absurd hname List.not_mem_nil
  settings _ h := absurd h List.not_mem_nil
  animations _ h := absurd h List.not_mem_nil
  stateWord _ h := nomatch h
  offsets := by
    show ∀ offset ∈ [0, 4], offset ≤ 8
    decide
  ascending := by
    show [0, 4].Pairwise (· ≤ ·)
    decide
  positions _ h := absurd h List.not_mem_nil
  pixels declared h := by
    obtain rfl := Option.some.inj h
    exact valid_lights rows

/-- With three dark rows the cell of the light is 768 and the second offset is 4: numbers that
need two bytes, and such that fit one. -/
theorem valuesFit_of_generate_lit :
    ∃ outputs, (lit 3).generate .standard = .ok outputs ∧ (Assembly.build (lit 3)).ValuesFit := by
  obtain ⟨outputs, h⟩ := exists_generate_standard (wellFormed_lit 3).check
  exact ⟨outputs, h, valuesFit_of_generate h⟩

/-- The light is listed with the number of its cell. -/
theorem scanToDisplay_lights (rows : Nat) :
    (PixelMap.build (lights rows)).scanToDisplay = [rows * 256] := by
  have hdark : ∀ cells ∈ (List.replicate rows (List.replicate 256 0)).map
      fun row : List UInt16 => row.map (·.toNat), 1 ∉ cells := by
    refine List.forall_mem_map.mpr fun row hrow hmem => ?_
    obtain ⟨cell, hcell, hone⟩ := List.mem_map.mp hmem
    rw [List.eq_of_mem_replicate hrow] at hcell
    rw [List.eq_of_mem_replicate hcell] at hone
    cases hone
  have hdisplay : (PixelMap.build (lights rows)).display =
      (List.replicate rows (List.replicate 256 0)).map
          (fun row : List UInt16 => row.map (·.toNat)) ++
        [1 :: (List.replicate 255 (0 : UInt16)).map (·.toNat)] := by
    rw [PixelMap.build, lights, List.map_append]
    rfl
  have hfirst : ∀ rest : List Nat, (1 :: rest).idxOf? 1 = some 0 := by simp [List.idxOf?_cons]
  have hcell : PixelMap.cellFrom 256 1 0 (PixelMap.build (lights rows)).display =
      some (rows * 256) := by
    rw [hdisplay, PixelMap.cellFrom_append hdark, List.length_map, List.length_replicate,
      PixelMap.cellFrom, hfirst]
    simp only [Nat.zero_add, Nat.add_zero]
  have hcolumns : PixelMap.columnsOf (PixelMap.build (lights rows)).display = 256 :=
    (PixelMap.columns_build (lights rows)).trans (columns_lights rows)
  have hpixels : PixelMap.scanToPixelOf (lights rows).pixels = [1] := by
    show PixelMap.scanToPixelOf [⟨1, [0], some 1⟩] = [1]
    decide
  have hvalue : PixelMap.cellOrZero (PixelMap.build (lights rows)).display 1 = rows * 256 := by
    rw [PixelMap.cellOrZero, hcolumns, hcell, if_neg (by decide), Option.getD_some]
  have htable : (PixelMap.build (lights rows)).scanToDisplay =
      (PixelMap.scanToPixelOf (lights rows).pixels).map
        (PixelMap.cellOrZero (PixelMap.build (lights rows)).display) := rfl
  rw [htable, hpixels, List.map_singleton, hvalue]

/-- Behind 256 rows the number of a cell needs more than two bytes, and it is listed
all the same. -/
theorem scanToDisplay_exceeds_type : ∃ outputs before after,
    (lit 256).generate .standard = .ok outputs ∧
      outputs.pixelMap =
        before ++ Listing.scanToDisplay (PixelMap.build (lights 256)) ++ after ∧
      readNumbers (Listing.scanToDisplay (PixelMap.build (lights 256))) =
        some ⟨"uint16_t", "Pixel_ScanCodeToDisplay[]", [0x10000]⟩ := by
  obtain ⟨outputs, h⟩ := exists_generate_standard (wellFormed_lit 256).check
  have hwrites := (generate_eq_ok_iff.mp h).2
  have hlisting : Placeholder.scanToDisplay.text? (Assembly.build (lit 256)) =
      some (Listing.scanToDisplay (PixelMap.build (lights 256))) := rfl
  obtain ⟨before, after, htext⟩ :=
    Template.contains_listing (hwrites.pixelMap rfl) (by decide) hlisting
  refine ⟨outputs, before, after, h, htext, ?_⟩
  rw [Listing.readNumbers_scanToDisplay, scanToDisplay_lights]

end Config

end Keymap
