import Keymap.Assembly.Build
import Keymap.Text.Numerals

/-!
# The description of the tables

Beside the listings there is one JSON document about the same tables, for
programs that talk to the firmware. The keys of all its objects ascend.
-/

namespace Keymap

namespace Json

/-- An object with ascending keys; any other value as it is. -/
def sortMembers : Json → Json
  | .object members => sortedObject members
  | value => value

/-- Names with their places in a list. -/
def places (names : List String) : Json :=
  sortedObject (names.zipIdx.map fun (name, i) => (name, .nat i))

/-- An array of naturals. -/
def nats (ns : List Nat) : Json := .array (ns.map .nat)

/-- An array of texts. -/
def strings (texts : List String) : Json := .array (texts.map .string)

end Json

namespace PixelMap

/-- The row and column of the first cell that holds a pixel, for rows from `row` on. -/
def placeFrom (pixel : Nat) : (row : Nat) → List (List Nat) → Option (Nat × Nat)
  | _, [] => none
  | row, cells :: rest =>
    match cells.idxOf? pixel with
    | some column => some (row, column)
    | none => placeFrom pixel (row + 1) rest

/-- The row and column of the first cell that holds a pixel. -/
def place? (map : PixelMap) (pixel : Nat) : Option (Nat × Nat) := placeFrom pixel 0 map.display

/-- The first scan code with a pixel. -/
def scanCode? (map : PixelMap) (pixel : Nat) : Option Nat :=
  (map.scanToPixel.idxOf? pixel).map (· + 1)

end PixelMap

namespace Description

/-- A capability with its index. -/
def capability (capability : Config.Capability) (index : Nat) : String × Json :=
  (capability.name, .sortedObject
    [("index", .nat index), ("function", .string capability.function),
     ("args", .array (capability.args.map fun arg =>
       (Config.Argument.codec.encode arg).sortMembers)),
     ("feature", .string (Codec.nameOf Config.Feature.names capability.feature))])

/-- The capabilities by name. -/
def capabilities (assembly : Assembly) : Json :=
  .sortedObject (assembly.capabilities.zipIdx.map fun (c, i) => capability c i)

/-- The triggers of a layer by scan code. -/
def layerTriggers (symbols : SymbolIndex) (map : ScanMap) : Json :=
  .sortedObject (map.lists.map fun (scanCode, triggers) =>
    (Text.hex scanCode, .strings (triggers.filterMap (symbols.name? .trigger))))

/-- A layer with the files it comes from. -/
def layer (symbols : SymbolIndex) (row : LayerRow) (declared : Config.Layer) : Json :=
  .sortedObject
    [("name", .string row.name), ("label", .string row.label),
     ("sources", .strings declared.sources), ("triggers", layerTriggers symbols row.map)]

/-- The layers. -/
def layers (assembly : Assembly) : Json :=
  .array ((assembly.layers.zip assembly.config.layers).map fun (row, declared) =>
    layer assembly.symbols row declared)

/-- A row of the settings table. -/
def settings (symbols : SymbolIndex) (row : SettingsRow) : Json :=
  let trigger := row.trigger.bind (symbols.name? .trigger)
  .sortedObject
    [("name", .string row.name), ("animation", .string row.animationName),
     ("trigger", (trigger.map Json.string).getD .null),
     ("modifiers", (Config.Playback.codec.encode row.playback).sortMembers)]

/-- The row and column of a pixel in the display. -/
def cellMembers (map : PixelMap) (pixel : Nat) : List (String × Json) :=
  match map.place? pixel with
  | some (row, column) => [("Row", .nat row), ("Col", .nat column)]
  | none => []

/-- A pixel with its channels, unless it is blank. -/
def pixel (map : PixelMap) (id : Nat) : PixelEntry → Option (String × Json)
  | .blank => none
  | .channels width channels =>
    let scanCode :=
      match map.scanCode? id with
      | some scanCode => [("ScanCode", .nat scanCode)]
      | none => []
    some (toString id, .sortedObject
      ([("Channels", .nats channels), ("Width", .nat width)] ++ scanCode ++ cellMembers map id))

/-- The pixels by number. -/
def pixels (assembly : Assembly) : Json :=
  match assembly.pixels with
  | none => .object []
  | some map =>
    .sortedObject (map.mapping.zipIdx.filterMap fun (entry, i) => pixel map (i + 1) entry)

/-- The coordinates of a key. -/
def positionMembers (p : Config.Position) : List (String × Json) :=
  let fraction (x : Binary64) : Json := .scalar (.number (.fraction x))
  [("x", fraction p.x), ("y", fraction p.y), ("z", fraction p.z), ("rx", fraction p.rx),
   ("ry", fraction p.ry), ("rz", fraction p.rz)]

/-- The pixel of a scan code. -/
def scannedMembers (map : PixelMap) (scanCode : Nat) : List (String × Json) :=
  match map.scanToPixel[scanCode - 1]? with
  | none | some 0 => []
  | some pixel => ("PixelId", .nat pixel) :: cellMembers map pixel

/-- What is known about a scan code, if anything is. -/
def scanCode (assembly : Assembly) (scanCode : Nat) : Option (String × Json) :=
  let position :=
    match assembly.positions.entries[scanCode - 1]? with
    | some p => positionMembers p
    | none => []
  let scanned :=
    match assembly.pixels with
    | some map => scannedMembers map scanCode
    | none => []
  if position.isEmpty && scanned.isEmpty then none
  else some (toString scanCode, .sortedObject (position ++ scanned))

/-- The greatest scan code about which something may be known. -/
def lastScanCode (assembly : Assembly) : Nat :=
  max assembly.positions.entries.length
    (match assembly.pixels with
      | some map => map.scanToPixel.length
      | none => 0)

/-- The keys by scan code. -/
def scanCodes (assembly : Assembly) : Json :=
  .sortedObject ((List.range' 1 (lastScanCode assembly)).filterMap (scanCode assembly))

end Description

/-- The description of the tables. -/
def Assembly.describe (assembly : Assembly) : Json :=
  .object
    [("AnimationIds", .places (assembly.animations.map (·.name))),
     ("AnimationSettings", .places (assembly.settings.map (·.name))),
     ("AnimationSettingsIndex",
        .array (assembly.settings.map (Description.settings assembly.symbols))),
     ("Capabilities", Description.capabilities assembly),
     ("Defines", .sortedObject (assembly.config.defines.map fun (name, value) =>
        (name, .string value))),
     ("Layers", Description.layers assembly),
     ("PixelIds", Description.pixels assembly),
     ("ScanCodes", Description.scanCodes assembly)]

end Keymap
