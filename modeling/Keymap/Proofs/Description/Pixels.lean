import Keymap.Description
import Keymap.Proofs.Document.Paths
import Keymap.Proofs.Listing.Numbers
import Keymap.Proofs.Pixels.Tables

/-!
# The description of pixels

The description searches the display and the scan codes for every pixel on its own,
while the listings have tables by scan code. The first cell with a pixel is the one
whose number stands in the table of cells, and as a pixel lies on one scan code at
most, the first scan code with a pixel is the only one.
-/

namespace Keymap

namespace PixelMap

section Places

variable {pixel row : Nat} {display : List (List Nat)}

/-- The place that is found holds the pixel. -/
theorem placeFrom_eq_some {i j : Nat} (h : placeFrom pixel row display = some (i, j)) :
    row ≤ i ∧ ∃ cells : List Nat, display[i - row]? = some cells ∧ cells[j]? = some pixel := by
  induction display generalizing row with
  | nil => cases h
  | cons cells rest ih =>
    rw [placeFrom] at h
    split at h
    next column hcolumn =>
      obtain ⟨rfl, rfl⟩ := Prod.mk.inj (Option.some.inj h)
      obtain ⟨hlt, he, _⟩ := List.idxOf?_eq_some_iff.mp hcolumn
      refine ⟨Nat.le_refl _, cells, ?_, ?_⟩
      · rw [Nat.sub_self, List.getElem?_cons_zero]
      · exact List.getElem?_eq_some_iff.mpr ⟨hlt, he⟩
    next =>
      obtain ⟨hle, found, hrow, hcell⟩ := ih h
      refine ⟨by omega, found, ?_, hcell⟩
      rwa [show i - row = (i - (row + 1)) + 1 by omega, List.getElem?_cons_succ]

/-- A place is found exactly for the pixels in the display. -/
theorem isSome_placeFrom :
    (placeFrom pixel row display).isSome = true ↔ pixel ∈ display.flatten := by
  induction display generalizing row with
  | nil => simp [placeFrom]
  | cons cells rest ih =>
    rw [placeFrom, List.flatten_cons, List.mem_append]
    split
    next column hcolumn =>
      have hmem : pixel ∈ cells := List.isSome_idxOf?.mp (Option.isSome_of_eq_some hcolumn)
      simp [hmem]
    next hnone => rw [ih, or_iff_right (List.idxOf?_eq_none_iff.mp hnone)]

/-- The number of the cell that is found is that of the place that is found. -/
theorem cellFrom_eq_map_placeFrom (columns : Nat) :
    cellFrom columns pixel row display =
      (placeFrom pixel row display).map fun place => place.1 * columns + place.2 := by
  induction display generalizing row with
  | nil => rfl
  | cons cells rest ih =>
    rw [cellFrom, placeFrom]
    cases cells.idxOf? pixel with
    | some column => rfl
    | none => exact ih

end Places

section Tables

variable {declared : Config.PixelSection} {pixel i : Nat}

/-- The entry of the table of cells is the place of the pixel that lies on the scan code. -/
theorem getElem?_scanToDisplay_build (hpos : 0 < pixel)
    (h : (build declared).scanToPixel[i]? = some pixel) :
    (build declared).scanToDisplay[i]? = some ((((build declared).place? pixel).map fun place =>
      place.1 * (build declared).columns + place.2).getD 0) := by
  have htable : (build declared).scanToDisplay =
      (build declared).scanToPixel.map (cellOrZero (build declared).display) := rfl
  rw [htable, List.getElem?_map, h, Option.map_some, cellOrZero, if_neg (Nat.ne_of_gt hpos),
    cellFrom_eq_map_placeFrom]
  rfl

/-- Where numbers are distinct, the scan code that is found for a pixel is the one on
which it lies. -/
theorem scanCode?_build_eq_some_iff (h : (declared.pixels.map (·.id)).Nodup) (hpos : 0 < pixel)
    {scanCode : Nat} :
    (build declared).scanCode? pixel = some scanCode ↔
      1 ≤ scanCode ∧ (build declared).scanToPixel[scanCode - 1]? = some pixel := by
  have hfound : ∀ i, (build declared).scanToPixel.idxOf? pixel = some i ↔
      (build declared).scanToPixel[i]? = some pixel := by
    intro i
    rw [List.idxOf?_eq_some_iff]
    constructor
    · rintro ⟨hlt, he, _⟩
      exact List.getElem?_eq_some_iff.mpr ⟨hlt, he⟩
    · intro hi
      obtain ⟨hlt, he⟩ := List.getElem?_eq_some_iff.mp hi
      refine ⟨hlt, he, fun j hj hjp => ?_⟩
      -- an earlier scan code with the pixel would be a second one
      have hij := eq_of_getElem?_scanToPixelOf h hi
        (List.getElem?_eq_some_iff.mpr ⟨Nat.lt_trans hj hlt, hjp⟩) hpos
      omega
  rw [scanCode?, Option.map_eq_some_iff]
  constructor
  · rintro ⟨i, hi, rfl⟩
    exact ⟨Nat.le_add_left 1 i, (hfound i).mp hi⟩
  · rintro ⟨hle, hi⟩
    exact ⟨scanCode - 1, (hfound _).mpr hi, Nat.sub_add_cancel hle⟩

end Tables

end PixelMap

namespace Description

open Json

variable {assembly : Assembly} {map : PixelMap}

/-- The members for the place of a pixel have their keys in order. -/
private theorem sublist_cellMembers (map : PixelMap) (pixel : Nat) :
    List.Sublist ((cellMembers map pixel).map (·.1)) ["Row", "Col"] := by
  rw [cellMembers]
  split
  next => exact List.Sublist.refl _
  next => exact List.nil_sublist _

section ScanCodes

/-- The members for the coordinates of a scan code. -/
def positioned (assembly : Assembly) (s : Nat) : List (String × Json) :=
  match assembly.positions.entries[s - 1]? with
  | some p => positionMembers p
  | none => []

/-- The keys of the coordinates. -/
def positionKeys : List String := ["x", "y", "z", "rx", "ry", "rz"]

/-- The members for the coordinates have their keys in order. -/
private theorem sublist_positioned (assembly : Assembly) (s : Nat) :
    List.Sublist ((positioned assembly s).map (·.1)) positionKeys := by
  rw [positioned]
  split
  next => exact List.Sublist.refl _
  next => exact List.nil_sublist _

/-- The members for the pixel of a scan code have their keys in order. -/
private theorem sublist_scannedMembers (map : PixelMap) (s : Nat) :
    List.Sublist ((scannedMembers map s).map (·.1)) ["PixelId", "Row", "Col"] := by
  rw [scannedMembers]
  split
  next => exact List.nil_sublist _
  next => exact List.nil_sublist _
  next pixel _ _ => exact List.Sublist.cons_cons _ (sublist_cellMembers map pixel)

variable (hmap : assembly.pixels = some map)
include hmap

/-- A scan code has the members for its coordinates and for its pixel, if there are any. -/
private theorem scanCode_eq (s : Nat) :
    scanCode assembly s =
      if (positioned assembly s).isEmpty && (scannedMembers map s).isEmpty then none
      else some (toString s, sortedObject (positioned assembly s ++ scannedMembers map s)) := by
  rw [scanCode, hmap]
  rfl

/-- What is known about a scan code stands under the scan code. -/
theorem part?_scanCodes {s : Nat} (hs : 1 ≤ s) :
    (scanCodes assembly).part? (.key (toString s)) = (scanCode assembly s).map (·.2) := by
  have hname : ∀ s m, scanCode assembly s = some m → m.1 = toString s := by
    intro s m hm
    rw [scanCode_eq hmap, Option.ite_none_left_eq_some] at hm
    rw [← Option.some.inj hm.2]
  have hnodup : ((List.range' 1 (lastScanCode assembly)).map fun s => toString s).Nodup :=
    List.Nodup.map (fun _ _ => Text.toString_injective) List.nodup_range'
  -- behind the last scan code both tables end, and nothing is known
  have hlast : ∀ m, scanCode assembly s = some m → s - 1 < lastScanCode assembly := by
    intro m hm
    by_contra hle
    rw [Nat.not_lt, lastScanCode, hmap, Nat.max_le] at hle
    rw [scanCode_eq hmap, positioned, scannedMembers, List.getElem?_eq_none hle.1,
      List.getElem?_eq_none hle.2] at hm
    cases hm
  ext value
  rw [scanCodes, part?_sortedObject_filterMap_iff hname hnodup, Option.map_eq_some_iff]
  constructor
  · rintro ⟨t, _, hm⟩
    obtain rfl : s = t := Text.toString_injective (hname t _ hm)
    exact ⟨_, hm, rfl⟩
  · rintro ⟨m, hm, rfl⟩
    have := hlast m hm
    refine ⟨s, List.mem_range'_1.mpr ⟨hs, by omega⟩, ?_⟩
    rw [hm, ← hname s m hm]

/-- Beside the coordinates, a scan code has the members for its pixel. -/
theorem get?_scanCodes {s : Nat} (hs : 1 ≤ s) {key : String} (hkey : key ∉ positionKeys) :
    (scanCodes assembly).get? [.key (toString s), .key key] =
      (scannedMembers map s).lookup key := by
  have hnodup : ((positioned assembly s ++ scannedMembers map s).map (·.1)).Nodup := by
    have hall : (positionKeys ++ ["PixelId", "Row", "Col"]).Nodup := by decide
    rw [List.map_append]
    exact hall.sublist ((sublist_positioned assembly s).append (sublist_scannedMembers map s))
  have hnone : (positioned assembly s).lookup key = none := by
    rw [List.lookup_eq_none_iff]
    intro m hm
    have hmem : m.1 ∈ positionKeys :=
      (sublist_positioned assembly s).subset (List.mem_map_of_mem hm)
    exact bne_iff_ne.mpr (ne_of_mem_of_not_mem hmem hkey).symm
  have hlookup : (positioned assembly s ++ scannedMembers map s).lookup key =
      (scannedMembers map s).lookup key := by
    rw [List.lookup_append, hnone, Option.none_or]
  rw [get?, part?_scanCodes hmap hs, scanCode_eq hmap]
  split
  next hempty =>
    rw [Bool.and_eq_true, List.isEmpty_iff, List.isEmpty_iff] at hempty
    rw [hempty.2]
    rfl
  next =>
    rw [Option.map_some, Option.bind_some, get?_singleton, part?_sortedObject hnodup, hlookup]

omit hmap in
/-- A scan code has the pixel that lies on it. -/
theorem lookup_pixelId_iff {s : Nat} {value : Json} :
    (scannedMembers map s).lookup "PixelId" = some value ↔
      ∃ p, 0 < p ∧ map.scanToPixel[s - 1]? = some p ∧ value = .nat p := by
  cases hp : map.scanToPixel[s - 1]? with
  | none => simp [scannedMembers, hp]
  | some p =>
    cases p with
    | zero => simp [scannedMembers, hp]
    | succ p => simp [scannedMembers, hp, eq_comm]

omit hmap in
/-- A scan code has the row and the column of its pixel, if the pixel is in the display. -/
theorem lookup_place {s p : Nat} (hpos : 0 < p) (h : map.scanToPixel[s - 1]? = some p) :
    (scannedMembers map s).lookup "Row" = (map.place? p).map (fun place => .nat place.1) ∧
      (scannedMembers map s).lookup "Col" = (map.place? p).map (fun place => .nat place.2) := by
  have hmembers : scannedMembers map s = ("PixelId", .nat p) :: cellMembers map p := by
    rw [scannedMembers, h]
    cases p with
    | zero => exact absurd hpos (Nat.lt_irrefl 0)
    | succ p => rfl
  rw [hmembers, cellMembers]
  cases map.place? p with
  | none => exact ⟨rfl, rfl⟩
  | some place => exact ⟨rfl, rfl⟩

end ScanCodes

section Pixels

variable (hmap : assembly.pixels = some map)
include hmap

/-- The pixel of a row stands under its number, if it has channels. -/
theorem part?_pixels (i : Nat) :
    (pixels assembly).part? (.key (toString (i + 1))) =
      (map.mapping[i]?.bind (pixel map (i + 1))).map (·.2) := by
  have hname : ∀ (entry : PixelEntry × Nat) m, pixel map (entry.2 + 1) entry.1 = some m →
      m.1 = toString (entry.2 + 1) := by
    rintro ⟨entry, i⟩ m hm
    cases entry with
    | blank => cases hm
    | channels width channels => rw [← Option.some.inj hm]
  have hnodup : (map.mapping.zipIdx.map fun entry => toString (entry.2 + 1)).Nodup := by
    have hnumbers : (map.mapping.zipIdx.map (·.2)).Nodup := by
      rw [List.zipIdx_map_snd]
      exact List.nodup_range'
    have htexts := hnumbers.map fun i j (h : toString (i + 1) = toString (j + 1)) =>
      Nat.succ.inj (Text.toString_injective h)
    rwa [List.map_map] at htexts
  ext value
  rw [pixels, hmap]
  dsimp only
  rw [part?_sortedObject_filterMap_iff hname hnodup, Option.map_eq_some_iff]
  constructor
  · rintro ⟨⟨entry, j⟩, hentry, hm⟩
    obtain rfl : i = j := Nat.succ.inj (Text.toString_injective (hname _ _ hm))
    rw [List.mk_mem_zipIdx_iff_getElem?] at hentry
    exact ⟨(toString (i + 1), value), Option.bind_eq_some_iff.mpr ⟨entry, hentry, hm⟩, rfl⟩
  · rintro ⟨m, hm, rfl⟩
    obtain ⟨entry, hentry, hm⟩ := Option.bind_eq_some_iff.mp hm
    refine ⟨(entry, i), List.mk_mem_zipIdx_iff_getElem?.mpr hentry, ?_⟩
    rw [hm, ← hname (entry, i) m hm]

omit hmap in
/-- The scan code of a pixel with channels is the one that is found for it. -/
private theorem part?_scanCode_pixel (id width : Nat) (channels : List Nat) :
    ((pixel map id (.channels width channels)).map (·.2)).bind (part? (.key "ScanCode")) =
      (map.scanCode? id).map Json.nat := by
  have hall : (["Channels", "Width"] ++ ["ScanCode"] ++ ["Row", "Col"]).Nodup := by decide
  have hnone : (cellMembers map id).lookup "ScanCode" = none := by
    rw [cellMembers]
    split <;> rfl
  have hkeys : ∀ {keys : List String}, List.Sublist keys ["ScanCode"] →
      (["Channels", "Width"] ++ keys ++ (cellMembers map id).map (·.1)).Nodup := fun h =>
    hall.sublist (((List.Sublist.refl _).append h).append (sublist_cellMembers map id))
  cases hcode : map.scanCode? id with
  | none =>
    simp only [pixel, hcode, Option.map_some, Option.bind_some, Option.map_none]
    refine (part?_sortedObject ?_ _).trans hnone
    exact hkeys (List.nil_sublist _)
  | some s =>
    simp only [pixel, hcode, Option.map_some, Option.bind_some]
    refine (part?_sortedObject ?_ _).trans rfl
    exact hkeys (List.Sublist.refl _)

/-- A pixel with channels has the scan code that is found for it. -/
theorem get?_pixels_eq_some_iff (i : Nat) {value : Json} :
    (pixels assembly).get? [.key (toString (i + 1)), .key "ScanCode"] = some value ↔
      (∃ width channels, map.mapping[i]? = some (.channels width channels)) ∧
        ∃ s, map.scanCode? (i + 1) = some s ∧ value = .nat s := by
  have hget : (pixels assembly).get? [.key (toString (i + 1)), .key "ScanCode"] =
      ((map.mapping[i]?.bind (pixel map (i + 1))).map (·.2)).bind (part? (.key "ScanCode")) := by
    rw [get?, part?_pixels hmap]
    exact congrArg _ (funext fun found => get?_singleton found _)
  rw [hget]
  cases hentry : map.mapping[i]? with
  | none => simp
  | some entry =>
    cases entry with
    | blank => simp [pixel]
    | channels width channels =>
      rw [Option.bind_some, part?_scanCode_pixel, Option.map_eq_some_iff]
      constructor
      · rintro ⟨s, hs, rfl⟩
        exact ⟨⟨width, channels, rfl⟩, s, hs, rfl⟩
      · rintro ⟨_, s, hs, rfl⟩
        exact ⟨s, hs, rfl⟩

end Pixels

end Description

namespace Listing

/-- The values of a table of numbers in its listing. -/
def valuesOf (text : String) : List Nat := ((readNumbers text).map (·.values)).getD []

end Listing

namespace Assembly

/-- A scan code is described by the place of its pixel, which it has exactly if the
pixel is in the display, and the number of this cell, or zero, is the entry of the table
of cells. -/
structure DescribesCell (a : Assembly) (map : PixelMap) (s pixel : Nat)
    (place : Option (Nat × Nat)) : Prop where
  shown : place.isSome = true ↔ pixel ∈ Listing.valuesOf (Listing.displayTable map)
  holds : ∀ row column, place = some (row, column) →
    ∃ cells : List Nat, map.display[row]? = some cells ∧ cells[column]? = some pixel
  row : a.describe.get? [.key "ScanCodes", .key (toString s), .key "Row"] =
    place.map fun place => .nat place.1
  column : a.describe.get? [.key "ScanCodes", .key (toString s), .key "Col"] =
    place.map fun place => .nat place.2
  cell : (Listing.valuesOf (Listing.scanToDisplay map))[s - 1]? =
    some ((place.map fun place => place.1 * map.columns + place.2).getD 0)

/-- Scan codes and pixels are described as in the tables that are read from the listings. -/
structure DescribesPixels (a : Assembly) (map : PixelMap) : Prop where
  pixel : ∀ s, 1 ≤ s → ∀ value,
    a.describe.get? [.key "ScanCodes", .key (toString s), .key "PixelId"] = some value ↔
      ∃ p, 0 < p ∧ (Listing.valuesOf (Listing.scanToPixel map))[s - 1]? = some p ∧ value = .nat p
  place : ∀ s p, 1 ≤ s → 0 < p →
    (Listing.valuesOf (Listing.scanToPixel map))[s - 1]? = some p →
      ∃ place, a.DescribesCell map s p place
  scanCode : ∀ p, 0 < p → ∀ value,
    a.describe.get? [.key "PixelIds", .key (toString p), .key "ScanCode"] = some value ↔
      (∃ width channels, map.mapping[p - 1]? = some (.channels width channels)) ∧
        ∃ s, 1 ≤ s ∧ (Listing.valuesOf (Listing.scanToPixel map))[s - 1]? = some p ∧
          value = .nat s

end Assembly

/-- The pixels of a configuration without errors are described. -/
theorem Config.describesPixels_build {config : Config} (hw : config.WellFormed) {map : PixelMap}
    (hmap : (Assembly.build config).pixels = some map) :
    (Assembly.build config).DescribesPixels map := by
  have hscanToPixel : Listing.valuesOf (Listing.scanToPixel map) = map.scanToPixel := by
    rw [Listing.valuesOf, Listing.readNumbers_scanToPixel]
    rfl
  have hscanToDisplay : Listing.valuesOf (Listing.scanToDisplay map) = map.scanToDisplay := by
    rw [Listing.valuesOf, Listing.readNumbers_scanToDisplay]
    rfl
  have hdisplay : Listing.valuesOf (Listing.displayTable map) = map.display.flatten := by
    rw [Listing.valuesOf, Listing.readNumbers_displayTable]
    rfl
  obtain ⟨declared, hpixels, rfl⟩ : ∃ declared, config.pixels = some declared ∧
      PixelMap.build declared = map := by
    rwa [Assembly.pixels_build, Option.map_eq_some_iff] at hmap
  have hvalid := hw.pixels declared hpixels
  have hmember : ∀ s, 1 ≤ s → ∀ key ∉ Description.positionKeys,
      (Assembly.build config).describe.get? [.key "ScanCodes", .key (toString s), .key key] =
        (Description.scannedMembers (PixelMap.build declared) s).lookup key := by
    intro s hs key hkey
    rw [← Description.get?_scanCodes hmap hs hkey]
    rfl
  constructor
  · intro s hs value
    rw [hmember s hs _ (by decide), Description.lookup_pixelId_iff, hscanToPixel]
  · intro s p hs hpos hp
    rw [hscanToPixel] at hp
    obtain ⟨hrow, hcolumn⟩ := Description.lookup_place hpos hp
    refine ⟨(PixelMap.build declared).place? p, ?_⟩
    constructor
    · rw [hdisplay]
      exact PixelMap.isSome_placeFrom
    · intro row column hplace
      obtain ⟨_, hcells⟩ := PixelMap.placeFrom_eq_some hplace
      exact hcells
    · rw [hmember s hs _ (by decide), hrow]
    · rw [hmember s hs _ (by decide), hcolumn]
    · rw [hscanToDisplay, PixelMap.getElem?_scanToDisplay_build hpos hp]
  · intro p hpos value
    have hget := @Description.get?_pixels_eq_some_iff _ _ hmap (p - 1) value
    rw [Nat.sub_add_cancel hpos] at hget
    simp only [hscanToPixel, ← and_assoc,
      ← PixelMap.scanCode?_build_eq_some_iff hvalid.distinct hpos]
    exact hget

end Keymap
