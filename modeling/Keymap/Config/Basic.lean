import Keymap.Config.Capability
import Keymap.Config.Trigger
import Keymap.Config.Pixels
import Keymap.Config.Animation

/-!
# Configurations

A configuration is everything that is declared about one keyboard. Every list
keeps the order of declaration, because the numbers in the firmware tables
follow from it.
-/

namespace Keymap

namespace Config

/-- A layer: the files it comes from and the triggers it binds by name. -/
structure Layer where
  name : String
  sources : List String
  triggers : List String

/-- The place of the key with a scan code in millimetres, and its rotation. -/
structure Position where
  scanCode : UInt16
  x : Binary64
  y : Binary64
  z : Binary64
  rx : Binary64
  ry : Binary64
  rz : Binary64
  deriving DecidableEq

/-- The codec of a layer. -/
def Layer.codec : Codec Layer :=
  .record "LayerDef"
    (.require "name" .string <| .optional "sources" (.list .string) [] <|
      .optional "triggers" (.list .string) [] .nil)
    (fun (name, sources, triggers, ()) => ⟨name, sources, triggers⟩)
    (fun l => (l.name, l.sources, l.triggers, ()))

/-- The codec of a key position. -/
def Position.codec : Codec Position :=
  let coordinate {αs : List Type} (name : String) (rest : Fields αs) :
      Fields (Binary64 :: αs) :=
    .optional name .fraction .zero rest
  .record "KeyPositionDef"
    (.require "scan_code" .uint16 <| coordinate "x" <| coordinate "y" <| coordinate "z" <|
      coordinate "rx" <| coordinate "ry" <| coordinate "rz" .nil)
    (fun (scanCode, x, y, z, rx, ry, rz, ()) => ⟨scanCode, x, y, z, rx, ry, rz⟩)
    (fun p => (p.scanCode, p.x, p.y, p.z, p.rx, p.ry, p.rz, ()))

/-- The files that a configuration comes from. -/
structure Sources where
  configuration : List String := []
  generic : List String := []
  base : List String := []

/-- The codec of the files. -/
def Sources.codec : Codec Sources :=
  .record "Sources"
    (.optional "configuration" (.list .string) [] <| .optional "generic" (.list .string) [] <|
      .optional "base" (.list .string) [] .nil)
    (fun (configuration, generic, base, ()) => ⟨configuration, generic, base⟩)
    (fun s => (s.configuration, s.generic, s.base, ()))

end Config

/-- The declarations about one keyboard. -/
structure Config where
  schemaVersion : UInt32
  name : String
  sources : Config.Sources
  /-- Names and values for the head of the definitions, in the order of the names. -/
  defines : List (String × String)
  maxScanCode : UInt16
  /-- The bits of the word that holds the index of a trigger. -/
  stateWordSize : Option UInt8
  /-- The first scan code of every board. -/
  interconnectOffsets : List UInt16
  /-- The number of scan codes of every board, for the case that no first codes are given. -/
  boardScanCodes : List UInt16
  capabilities : List Config.Capability
  routing : Config.Routing
  results : List Config.Result
  triggers : List Config.Trigger
  /-- The default layer and the partial layers behind it. -/
  layers : List Config.Layer
  positions : List Config.Position
  pixels : Option Config.PixelSection
  animations : List Config.Animation
  animationSettings : List Config.AnimationSettings

namespace Config

/-- The codec of a configuration. -/
def codec : Codec Config :=
  .record "KeymapConfig"
    (.optional "schema_version" .uint32 0 <| .require "name" .string <|
      .optional "sources" Sources.codec {} <| .optional "defines" .textMap [] <|
      .require "max_scan_code" .uint16 <|
      .optional "state_word_size" (.option .uint8) none <|
      .optional "interconnect_offsets" (.list .uint16) [] <|
      .optional "board_scan_codes" (.list .uint16) [] <|
      .optional "capabilities" (.list Capability.codec) [] <|
      .optional "routing" Routing.codec {} <|
      .optional "results" (.list Result.codec) [] <|
      .optional "triggers" (.list Trigger.codec) [] <|
      .require "layers" (.list Layer.codec) <|
      .optional "positions" (.list Position.codec) [] <|
      .optional "pixels" (.option PixelSection.codec) none <|
      .optional "animations" (.list Animation.codec) [] <|
      .optional "animation_settings" (.list AnimationSettings.codec) [] .nil)
    (fun (version, name, sources, defines, maxScanCode, wordSize, offsets, boards, capabilities,
        routing, results, triggers, layers, positions, pixels, animations, settings, ()) =>
      ⟨version, name, sources, defines, maxScanCode, wordSize, offsets, boards, capabilities,
        routing, results, triggers, layers, positions, pixels, animations, settings⟩)
    (fun c => (c.schemaVersion, c.name, c.sources, c.defines, c.maxScanCode, c.stateWordSize,
      c.interconnectOffsets, c.boardScanCodes, c.capabilities, c.routing, c.results, c.triggers,
      c.layers, c.positions, c.pixels, c.animations, c.animationSettings, ()))

/-- The version of the schema that configurations have now. -/
def currentVersion : UInt32 := 1

/-- A configuration with one empty layer. -/
def empty (name : String) (maxScanCode : UInt16) : Config where
  schemaVersion := currentVersion
  name := name
  sources := {}
  defines := []
  maxScanCode := maxScanCode
  stateWordSize := none
  interconnectOffsets := []
  boardScanCodes := []
  capabilities := []
  routing := {}
  results := []
  triggers := []
  layers := [⟨"default", [], []⟩]
  positions := []
  pixels := none
  animations := []
  animationSettings := []

/-- The capability with a name. -/
def capability? (config : Config) (name : String) : Option Capability :=
  config.capabilities.find? fun c => decide (c.name = name)

/-- The trigger with a name. -/
def trigger? (config : Config) (name : String) : Option Trigger :=
  config.triggers.find? fun t => decide (t.name = name)

/-- The JSON value of a configuration. -/
def toJson (config : Config) : Json := codec.encode config

/-- The JSON text of a configuration. -/
def jsonText (config : Config) : String := config.toJson.text

end Config

end Keymap
