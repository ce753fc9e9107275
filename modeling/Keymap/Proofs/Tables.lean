import Keymap.Listing.Animations
import Keymap.Proofs.Guide.Sharing
import Keymap.Proofs.InStep
import Keymap.Proofs.Symbols

/-!
# Rows and their indices

The tables of a configuration have a row for every index, and the row at the index
of a name has the name. This holds for every configuration: of several declarations
with one name the first is the one that the row is built from, and the others leave
no gap.
-/

namespace Keymap

open Assembly

/-- An index, if there is one, is the place of a name. -/
def PointsAt (names : List String) (index : Option Nat) (name : String) : Prop :=
  ∀ i, index = some i ↔ names[i]? = some name

/-- A table has a row for every index of a kind, with the name at that index; its names
are those of the declarations in their order, and every row is built from the first
declaration with its name. -/
structure TableOf (symbols : SymbolIndex) (kind : SymbolKind) (key : α → String)
    (declared : List α) (name : β → String) (built : α → β → Prop) (rows : List β) : Prop where
  size : rows.length = symbols.size kind
  names : ∀ i row, rows[i]? = some row → symbols.name? kind i = some (name row)
  distinct : (rows.map name).Nodup
  order : FirstOccurrences (declared.map key) (rows.map name)
  built : ∀ row ∈ rows, ∃ declaration, declared.find? (fun d => decide (key d = name row)) =
    some declaration ∧ built declaration row

/-- The settings table begins with the animations in the order of their indices; the
rows behind them are declared settings. -/
structure SettingsInOrder (a : Assembly) : Prop where
  distinct : (a.settings.map (·.name)).Nodup
  initial : ∀ (i : Nat) (compiled : Animation.Compiled), a.animations[i]? = some compiled →
    ∃ row : SettingsRow, a.settings[i]? = some row ∧ row.name = compiled.name ∧
      row.animation = some i ∧ row.isInitial = true
  later : ∀ (i : Nat) (row : SettingsRow), a.settings[i]? = some row → a.animations.length ≤ i →
    row.isInitial = false
  index : ∀ name, PointsAt (a.settings.map (·.name)) (a.settingsIndex name) name
  animation : ∀ row ∈ a.settings,
    PointsAt (a.animations.map (·.name)) row.animation row.animationName
  declared : ∀ row ∈ a.settings, row.isInitial = false → ∃ declaration,
    a.config.animationSettings.find? (fun d => decide (d.name = row.name)) = some declaration ∧
      row.animationName = declaration.animation ∧
      ∀ trigger, declaration.trigger = some trigger →
        PointsAt (a.triggers.map (·.name)) row.trigger trigger
  /-- The listing has all rows in the order of their indices, with a remark between
  those with default settings and the others. -/
  printed : ∃ first later, first ++ later = a.settings.zipIdx ∧
    (∀ entry ∈ first, entry.1.isInitial = true) ∧ (∀ entry ∈ later, entry.1.isInitial = false) ∧
    Listing.settingsTable a = "const AnimationStackElement Pixel_AnimationSettings[] = \x7b" ++
      Listing.settingsLines first ++ "\n\n\t/* Additional Settings */" ++
      Listing.settingsLines later ++ "\n\x7d;"

/-- Every index in the tables points at the row with the name that it stands for. -/
structure Assembly.Indexed (a : Assembly) : Prop where
  symbols : a.symbols = interned a.config
  resolve : ∀ kind name, PointsAt (a.symbols.names kind) (a.symbols.resolve kind name) name
  capabilities : TableOf a.symbols .capability (·.name) a.config.capabilities (·.name)
    (fun declaration row => row = declaration) a.capabilities
  results : TableOf a.symbols .result (·.name) a.config.results (·.name)
    (fun declaration row => row = (resultScope a.config a.settings).row declaration) a.results
  triggers : TableOf a.symbols .trigger (·.name) a.config.triggers (·.name)
    (fun declaration row =>
      row.RowOf (triggerScope a.config) (a.results.map (·.name)) a.guides declaration) a.triggers
  animations : TableOf a.symbols .animation (·.name) a.config.animations (·.name)
    (fun declaration compiled => compiled = Animation.compile a.displayExtent declaration)
    a.animations
  /-- The pixels have the numbers from one on as their names. -/
  pixels : a.symbols.size .pixel = (a.pixels.map (·.totalPixels)).getD 0 ∧
    ∀ id, 1 ≤ id → id ≤ a.symbols.size .pixel →
      a.symbols.resolve .pixel (toString id) = some (id - 1)
  triggerResults : ∀ row ∈ a.triggers, PointsAt (a.results.map (·.name)) row.result row.resultName
  settings : SettingsInOrder a

/-- Where names are distinct, a name resolves to its place. -/
theorem pointsAt_idxOf? {names : List String} (h : names.Nodup) (name : String) :
    PointsAt names (names.idxOf? name) name :=
  fun _ => idxOf?_eq_some_iff_getElem? h

section Rows

variable {symbols : SymbolIndex} {kind : SymbolKind} {key : α → String} {declared : List α}
  {name : β → String} {built : α → β → Prop} {rows : List β}

/-- Rows that are built one by one from the first declarations with their names make a table. -/
theorem tableOf_of_forall₂ (hnames : symbols.names kind = firstsBy id [] (declared.map key))
    (hrows : List.Forall₂ (fun declaration row => name row = key declaration ∧
      built declaration row) (firstsBy key [] declared) rows) :
    TableOf symbols kind key declared name built rows := by
  have hmap : rows.map name = symbols.names kind := by
    rw [hnames, ← map_firstsBy]
    exact map_eq_map_iff_forall₂.mpr (hrows.imp fun _ _ h => h.1).flip
  have horder : FirstOccurrences (declared.map key) (rows.map name) := by
    rw [hmap, hnames]
    exact firstOccurrences_firstsBy _
  refine ⟨?_, fun i row hrow => ?_, horder.nodup, horder, fun row hrow => ?_⟩
  · rw [SymbolIndex.size, ← hmap, List.length_map]
  · rw [SymbolIndex.name?, ← hmap, List.getElem?_map, hrow, Option.map_some]
  · obtain ⟨i, hi, rfl⟩ := List.getElem_of_mem hrow
    have hi' : i < (firstsBy key [] declared).length := hrows.length_eq ▸ hi
    obtain ⟨hname, hbuilt⟩ := (List.forall₂_iff_get.mp hrows).2 i hi' hi
    refine ⟨(firstsBy key [] declared)[i], ?_, hbuilt⟩
    exact (congrArg (fun wanted => declared.find? fun d => decide (key d = wanted)) hname).trans
      (find?_of_mem_firstsBy (List.getElem_mem hi'))

/-- A table whose rows are made of the first declarations. -/
theorem tableOf_map {make : α → β}
    (hname : ∀ declaration, name (make declaration) = key declaration)
    (hnames : symbols.names kind = firstsBy id [] (declared.map key)) :
    TableOf symbols kind key declared name (fun declaration row => row = make declaration)
      ((firstsBy key [] declared).map make) := by
  refine tableOf_of_forall₂ hnames ?_
  rw [List.forall₂_map_right_iff]
  exact List.forall₂_same.mpr fun declaration _ => ⟨hname declaration, rfl⟩

end Rows

section Printing

/-- A test that tells the first part of a list from the later one splits the list there. -/
theorem filter_append_of_forall {p : α → Bool} {first later : List α}
    (hfirst : ∀ a ∈ first, p a = true) (hlater : ∀ a ∈ later, p a = false) :
    (first ++ later).filter (p ·) = first ∧ (first ++ later).filter (!p ·) = later := by
  have hnone : later.filter (p ·) = [] :=
    List.filter_eq_nil_iff.mpr fun a ha => Bool.not_eq_true _ ▸ hlater a ha
  have hothers : first.filter (!p ·) = [] :=
    List.filter_eq_nil_iff.mpr fun a ha => by simp [hfirst a ha]
  have hall : later.filter (!p ·) = later :=
    List.filter_eq_self.mpr fun a ha => by simp [hlater a ha]
  rw [List.filter_append, List.filter_append, List.filter_eq_self.mpr hfirst, hnone, hothers, hall,
    List.append_nil, List.nil_append]
  exact ⟨rfl, rfl⟩

/-- Where the rows with default settings stand first, the listing has all rows in their order. -/
theorem settingsTable_of_append {a : Assembly} {initial declared : List SettingsRow}
    (h : a.settings = initial ++ declared) (hinitial : ∀ row ∈ initial, row.isInitial = true)
    (hdeclared : ∀ row ∈ declared, row.isInitial = false) :
    ∃ first later, first ++ later = a.settings.zipIdx ∧
      (∀ entry ∈ first, entry.1.isInitial = true) ∧
      (∀ entry ∈ later, entry.1.isInitial = false) ∧
      Listing.settingsTable a = "const AnimationStackElement Pixel_AnimationSettings[] = \x7b" ++
        Listing.settingsLines first ++ "\n\n\t/* Additional Settings */" ++
        Listing.settingsLines later ++ "\n\x7d;" := by
  have hsplit : a.settings.zipIdx = initial.zipIdx ++ declared.zipIdx (0 + initial.length) := by
    rw [h, List.zipIdx_append]
  have hfirst : ∀ entry ∈ initial.zipIdx, entry.1.isInitial = true := fun entry hentry =>
    hinitial _ (List.fst_mem_of_mem_zipIdx hentry)
  have hlater : ∀ entry ∈ declared.zipIdx (0 + initial.length), entry.1.isInitial = false :=
    fun entry hentry => hdeclared _ (List.fst_mem_of_mem_zipIdx hentry)
  refine ⟨_, _, hsplit.symm, hfirst, hlater, ?_⟩
  obtain ⟨hinitials, hothers⟩ := @filter_append_of_forall _
    (fun entry : SettingsRow × Nat => entry.1.isInitial) _ _ hfirst hlater
  unfold Listing.settingsTable
  rw [hsplit]
  dsimp only
  rw [hinitials, hothers]

end Printing

namespace Assembly

variable (config : Config)

/-- A name resolves to its place among the names of its kind. -/
theorem pointsAt_resolve (kind : SymbolKind) (name : String) :
    PointsAt ((build config).symbols.names kind) ((build config).symbols.resolve kind name) name :=
  fun _ => resolve_build_eq_some_iff config

/-- The names of the results are the names that count. -/
theorem map_name_results :
    (build config).results.map (·.name) = (build config).symbols.results.names :=
  List.map_map

/-- The names of the compiled animations are the names that count. -/
theorem map_name_animations :
    (build config).animations.map (·.name) = (build config).symbols.animations.names :=
  List.map_map

/-- The rows of the triggers are those of the declarations that count. -/
theorem forall₂_triggers : List.Forall₂ (TriggerRow.RowOf (triggerScope config)
    ((build config).results.map (·.name)) (build config).guides) config.distinctTriggers
      (build config).triggers := by
  rw [map_name_results]
  exact rows_shareAll

/-- The row of every trigger has its guide and result. -/
theorem tableOf_triggers : TableOf (build config).symbols .trigger (·.name) config.triggers (·.name)
    (fun declaration row => row.RowOf (triggerScope config) ((build config).results.map (·.name))
      (build config).guides declaration) (build config).triggers :=
  tableOf_of_forall₂ (names_symbols_build config .trigger)
    ((forall₂_triggers config).imp fun _ _ h => ⟨h.name, h⟩)

/-- The result of a trigger has the index of its name. -/
theorem pointsAt_result : ∀ row ∈ (build config).triggers,
    PointsAt ((build config).results.map (·.name)) row.result row.resultName := by
  intro row hrow
  obtain ⟨declaration, _, h⟩ := (tableOf_triggers config).built row hrow
  rw [h.result, h.resultName, map_name_results]
  exact pointsAt_idxOf? (firstOccurrences_build config .result).nodup _

section Settings

/-- The rows of the declared settings that are new. -/
def declaredRows : List SettingsRow :=
  (firstsBy (·.name) (build config).symbols.animations.names config.animationSettings).map
    (declaredRow (build config).symbols.animations.names (build config).symbols.triggers.names)

/-- The settings are those of the animations and then the declared ones. -/
theorem settings_build : (build config).settings =
    config.distinctAnimations.map (initialRow (build config).symbols.animations.names) ++
      declaredRows config := rfl

/-- The settings have distinct names. -/
theorem nodup_settings : ((build config).settings.map (·.name)).Nodup := by
  have hinitial : (config.distinctAnimations.map
      (initialRow (build config).symbols.animations.names)).map (·.name) =
        (build config).symbols.animations.names := List.map_map
  have hdeclared : (declaredRows config).map (·.name) =
      (firstsBy (·.name) (build config).symbols.animations.names config.animationSettings).map
        (·.name) := List.map_map
  rw [settings_build, List.map_append, hinitial, hdeclared, List.nodup_append]
  refine ⟨(firstOccurrences_build config .animation).nodup, nodup_map_firstsBy _ _, ?_⟩
  rintro name hname _ hother rfl
  exact (mem_map_firstsBy.mp hother).2 hname

/-- The row at the index of an animation has its default settings. -/
theorem getElem?_settings_initial {i : Nat} {compiled : Animation.Compiled}
    (h : (build config).animations[i]? = some compiled) :
    ∃ row : SettingsRow, (build config).settings[i]? = some row ∧ row.name = compiled.name ∧
      row.animation = some i ∧ row.isInitial = true := by
  have hanimations : (build config).animations =
      config.distinctAnimations.map (Animation.compile (build config).displayExtent) := rfl
  rw [hanimations, List.getElem?_map] at h
  obtain ⟨animation, hget, rfl⟩ := Option.map_eq_some_iff.mp h
  have hlt : i < (config.distinctAnimations.map
      (initialRow (build config).symbols.animations.names)).length := by
    rw [List.length_map]
    exact (List.getElem?_eq_some_iff.mp hget).1
  have hname : (build config).symbols.animations.names[i]? = some animation.name := by
    rw [← map_name_animations, hanimations, List.map_map, List.getElem?_map, hget]
    rfl
  refine ⟨initialRow (build config).symbols.animations.names animation, ?_, rfl, ?_, rfl⟩
  · rw [settings_build, List.getElem?_append_left hlt, List.getElem?_map, hget, Option.map_some]
  · exact (idxOf?_eq_some_iff_getElem? (firstOccurrences_build config .animation).nodup).mpr hname

/-- The rows behind those of the animations are declared. -/
theorem getElem?_settings_declared {i : Nat} {row : SettingsRow}
    (h : (build config).settings[i]? = some row) (hi : (build config).animations.length ≤ i) :
    row ∈ declaredRows config := by
  have hlength : (config.distinctAnimations.map
      (initialRow (build config).symbols.animations.names)).length =
        (build config).animations.length := by
    rw [List.length_map]
    exact (List.length_map _).symm
  rw [settings_build, List.getElem?_append_right (hlength ▸ hi)] at h
  exact List.mem_of_getElem? h

/-- Declared settings are not default settings. -/
theorem isInitial_declaredRows {row : SettingsRow} (h : row ∈ declaredRows config) :
    row.isInitial = false := by
  obtain ⟨_, _, rfl⟩ := List.mem_map.mp h
  rfl

/-- The animation of a row has the index of its name. -/
theorem pointsAt_animation {row : SettingsRow} (h : row ∈ (build config).settings) :
    PointsAt ((build config).animations.map (·.name)) row.animation row.animationName := by
  rw [settings_build, List.mem_append] at h
  rw [map_name_animations]
  have hnodup := (firstOccurrences_build config .animation).nodup
  rcases h with h | h
  · obtain ⟨animation, _, rfl⟩ := List.mem_map.mp h
    exact pointsAt_idxOf? hnodup animation.name
  · obtain ⟨settings, _, rfl⟩ := List.mem_map.mp h
    exact pointsAt_idxOf? hnodup settings.animation

/-- A declared row is that of the first declaration with its name. -/
theorem exists_declaration {row : SettingsRow} (h : row ∈ declaredRows config) :
    ∃ declaration,
      config.animationSettings.find? (fun d => decide (d.name = row.name)) = some declaration ∧
        row.animationName = declaration.animation ∧
        ∀ trigger, declaration.trigger = some trigger →
          PointsAt ((build config).triggers.map (·.name)) row.trigger trigger := by
  obtain ⟨declaration, hmem, rfl⟩ := List.mem_map.mp h
  refine ⟨declaration, find?_of_mem_firstsBy hmem, rfl, fun trigger htrigger => ?_⟩
  have hnames : (build config).triggers.map (·.name) = (build config).symbols.triggers.names :=
    map_eq_map_iff_forall₂.mpr ((forall₂_triggers config).imp fun _ _ h => h.name).flip
  rw [hnames, declaredRow, htrigger]
  exact pointsAt_idxOf? (firstOccurrences_build config .trigger).nodup trigger

/-- The settings of a configuration are in order. -/
theorem settingsInOrder_build : SettingsInOrder (build config) where
  distinct := nodup_settings config
  initial _ _ h := getElem?_settings_initial config h
  later _ _ h hi := isInitial_declaredRows config (getElem?_settings_declared config h hi)
  index := pointsAt_idxOf? (nodup_settings config)
  animation _ h := pointsAt_animation config h
  declared row h hlater := by
    rw [settings_build, List.mem_append] at h
    rcases h with h | h
    · obtain ⟨_, _, rfl⟩ := List.mem_map.mp h
      cases hlater
    · exact exists_declaration config h
  printed := by
    refine settingsTable_of_append (settings_build config) (fun row h => ?_)
      fun row => isInitial_declaredRows config
    obtain ⟨_, _, rfl⟩ := List.mem_map.mp h
    rfl

end Settings

/-- The pixels of a configuration resolve to the places before their numbers. -/
theorem resolve_pixels :
    (build config).symbols.size .pixel =
        ((build config).pixels.map (·.totalPixels)).getD 0 ∧
      ∀ id, 1 ≤ id → id ≤ (build config).symbols.size .pixel →
        (build config).symbols.resolve .pixel (toString id) = some (id - 1) := by
  have hnames : (build config).symbols.names .pixel = pixelNames (build config).pixels := rfl
  have hresolve : ∀ name, PointsAt (pixelNames (build config).pixels)
      ((build config).symbols.resolve .pixel name) name :=
    pointsAt_resolve config .pixel
  rw [SymbolIndex.size, hnames]
  cases hpixels : (build config).pixels with
  | none => exact ⟨rfl, fun id hpos hle => absurd (Nat.lt_of_lt_of_le hpos hle) (by decide)⟩
  | some map =>
    have hlength : (pixelNames (some map)).length = map.totalPixels := by
      rw [pixelNames, List.length_map, List.length_range]
    refine ⟨hlength, fun id hpos hle => (hresolve (toString id) (id - 1)).mpr ?_⟩
    have hlt : id - 1 < map.totalPixels := by omega
    rw [hpixels, pixelNames, List.getElem?_map, List.getElem?_range hlt, Option.map_some,
      Nat.sub_add_cancel hpos]

/-- The tables of every configuration, with or without errors, are indexed by the
names that count. -/
theorem indexed_build : (build config).config = config ∧ (build config).Indexed where
  left := rfl
  right := {
    symbols := symbols_build config
    resolve := pointsAt_resolve config
    capabilities := tableOf_of_forall₂ (names_symbols_build config .capability)
      (List.forall₂_same.mpr fun _ _ => ⟨rfl, rfl⟩)
    results := tableOf_map (fun _ => rfl) (names_symbols_build config .result)
    triggers := tableOf_triggers config
    animations := tableOf_map (fun _ => rfl) (names_symbols_build config .animation)
    pixels := resolve_pixels config
    triggerResults := pointsAt_result config
    settings := settingsInOrder_build config }

end Assembly

end Keymap
