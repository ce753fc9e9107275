import Keymap.Animation.Frame
import Keymap.Assembly.Layers
import Keymap.Assembly.Results
import Keymap.Assembly.Settings
import Keymap.Keys
import Keymap.SymbolIndex

/-!
# Assembling a configuration

The tables of one configuration. Assembling never fails: what cannot be encoded
is left out of its table, with a finding that says so. The findings stand in
the order of the tables: names declared twice, settings, results, triggers,
layers, animations.
-/

namespace Keymap

/-- The tables of one configuration. -/
@[ext]
structure Assembly where
  config : Config
  symbols : SymbolIndex
  capabilities : List Config.Capability
  /-- The scan code offset of every board. -/
  offsets : List Nat
  results : List ResultRow
  guides : List SharedGuide
  triggers : List TriggerRow
  layers : List LayerRow
  rotation : RotationTable
  positions : KeyPositions
  pixels : Option PixelMap
  animations : List Animation.Compiled
  settings : List SettingsRow
  /-- What was found while the tables were built. -/
  recorded : List Finding

namespace Config

/-- The capabilities that count. -/
def distinctCapabilities (config : Config) : List Capability :=
  firstsBy (·.name) [] config.capabilities

/-- The results that count. -/
def distinctResults (config : Config) : List Result := firstsBy (·.name) [] config.results

/-- The triggers that count. -/
def distinctTriggers (config : Config) : List Trigger := firstsBy (·.name) [] config.triggers

/-- The animations that count. -/
def distinctAnimations (config : Config) : List Animation :=
  firstsBy (·.name) [] config.animations

end Config

namespace Assembly

/-- The names of the pixels, their numbers from one on. -/
def pixelNames (pixels : Option PixelMap) : List String :=
  match pixels with
  | none => []
  | some map => (List.range map.totalPixels).map fun i => toString (i + 1)

/-- The names that count, of every kind. -/
def symbolsOf (config : Config) (pixels : Option PixelMap) : SymbolIndex where
  capabilities := .ofNames (config.distinctCapabilities.map (·.name))
  triggers := .ofNames (config.distinctTriggers.map (·.name))
  results := .ofNames (config.distinctResults.map (·.name))
  pixels := .ofNames (pixelNames pixels)
  animations := .ofNames (config.distinctAnimations.map (·.name))

/-- The findings on names of a kind that are declared again. -/
def repeatFindings (kind : SymbolKind) (names : List String) : List Finding :=
  (repeatsBy id [] names).map fun name =>
    .error .duplicates name (.shape (.duplicate kind.text name))

/-- The findings on names that are declared again. -/
def nameFindings (config : Config) : List Finding :=
  repeatFindings .capability (config.capabilities.map (·.name)) ++
    repeatFindings .result (config.results.map (·.name)) ++
    repeatFindings .trigger (config.triggers.map (·.name)) ++
    repeatFindings .animation (config.animations.map (·.name))

/-- What the results of a configuration refer to. -/
def resultScope (config : Config) (settings : List SettingsRow) : ResultScope where
  capabilities := config.distinctCapabilities
  settings := settings.map (·.name)
  routing := config.routing
  layerCount := config.layers.length

/-- What the triggers of a configuration refer to. -/
def triggerScope (config : Config) : TriggerScope where
  offsets := config.offsets
  layerCount := config.layers.length
  animations := config.distinctAnimations.map (·.name)

/-- The size of the display, zero without a pixel section. -/
def extentOf (pixels : Option PixelMap) : Extent :=
  match pixels with
  | some map => map.extent
  | none => {}

/-- The tables of a configuration. -/
def build (config : Config) : Assembly :=
  let pixels := config.pixels.map PixelMap.build
  let symbols := symbolsOf config pixels
  let settings := settingsRows config symbols.animations.names symbols.triggers.names
  let results := resultScope config settings
  let triggers := triggerScope config
  let distinct := config.distinctTriggers
  let (guides, rows) := shareAll triggers symbols.results.names [] distinct
  let extent := extentOf pixels
  { config := config
    symbols := symbols
    capabilities := config.distinctCapabilities
    offsets := config.offsets
    results := config.distinctResults.map results.row
    guides := guides
    triggers := rows
    layers := config.layers.map (layerRow triggers distinct)
    rotation := rotationTable distinct config.layers
    positions := .build config.positions config.maxScanCode
    pixels := pixels
    animations := config.distinctAnimations.map (Animation.compile extent)
    settings := settings
    recorded :=
      nameFindings config ++
        settingsFindings symbols.animations.names symbols.triggers.names symbols.animations.names
          config.animationSettings ++
        config.distinctResults.flatMap results.findings ++
        distinct.flatMap triggers.findings ++
        config.layers.flatMap (layerFindings distinct) ++
        config.distinctAnimations.flatMap (Animation.findings extent) }

section Parts

variable (config : Config)

theorem config_build : (build config).config = config := rfl

/-- The pixel section has its map in the tables. -/
theorem pixels_build : (build config).pixels = config.pixels.map PixelMap.build := rfl

/-- There is a pixel map exactly if there is a pixel section. -/
theorem isSome_pixels_build : (build config).pixels.isSome = config.pixels.isSome :=
  Option.isSome_map

/-- Every animation that counts is compiled for the extent of the pixels. -/
theorem animations_build : (build config).animations = config.distinctAnimations.map
    (Animation.compile (extentOf (config.pixels.map PixelMap.build))) := rfl

end Parts

/-- The row of the settings table with a name. -/
def settingsIndex (assembly : Assembly) (name : String) : Option Nat :=
  (assembly.settings.map (·.name)).idxOf? name

/-- The size of the display, zero without a pixel section. -/
def displayExtent (assembly : Assembly) : Extent := extentOf assembly.pixels

/-- The payload bytes of changes, the usual ones without a pixel section. -/
def frameFormat (assembly : Assembly) : Config.FrameFormat :=
  match assembly.config.pixels with
  | some declared => declared.frameFormat
  | none => {}

end Assembly

end Keymap
