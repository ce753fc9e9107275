import Keymap.Template.Basic

/-!
# The standard templates

The keymap and the definitions are headers; the pixel map is a source file of
its own. Together they use every placeholder.
-/

namespace Keymap

/-- The templates of one run. -/
structure Templates where
  keymap : Template
  pixelMap : Template
  defines : Template

namespace Template

/-- The header with the tables of the keys. -/
def keymapHeader : Template where
  name := "kiibohdKeymap.h"
  segments :=
    [.slot .information,
     .literal <|
      "\n\n#pragma once\n\n// ----- Includes -----\n\n#include <kll.h>\n\n\n\n" ++
      "// ----- Capabilities -----\n\n// Capability functions\n",
     .slot .capabilityFunctions,
     .literal "\n\n// Capability table, indexed by CapabilityIndex\n",
     .slot .capabilityTable,
     .literal <|
      "\n\n\n\n// ----- Result Macros -----\n\n" ++
      "// Guides: combo length, then capability index and argument bytes per element\n",
     .slot .resultGuides,
     .literal "\n\n",
     .slot .resultTable,
     .literal <|
      "\n\n\n\n// ----- Trigger Macros -----\n\n" ++
      "// Guides: combo length, then trigger type, schedule and uid per element\n",
     .slot .triggerGuides,
     .literal "\n\n",
     .slot .triggerTable,
     .literal "\n\n// Runtime state of each trigger macro\n",
     .slot .triggerRecords,
     .literal <|
      "\n\n\n\n// ----- Trigger Maps -----\n\n" ++
      "// Highest scan code of the keyboard (at most 0xFF)\n#define MaxScanCode ",
     .slot .maxScanCode,
     .literal <|
      "\n\n// -- Trigger lists\n" ++
      "// Element 0 holds the list length, the rest are trigger macro indices\n\n" ++
      "// Default layer\n",
     .slot .defaultTriggerLists,
     .literal "\n\n// Partial layers\n",
     .slot .partialTriggerLists,
     .literal "\n\n// -- Interconnect scan code offsets, one per board\n",
     .slot .offsetTable,
     .literal "\n\n// -- Scan code to trigger list maps\n\n// Default layer\n",
     .slot .defaultScanMap,
     .literal "\n\n// Partial layers\n",
     .slot .partialScanMaps,
     .literal "\n\n\n\n// ----- Layers -----\n\n",
     .slot .layerIndex,
     .literal "\n\n",
     .slot .layerStates,
     .literal <|
      "\n\n\n\n// ----- Rotation -----\n\n" ++
      "// Largest parameter per rotation trigger uid\n",
     .slot .rotationTable,
     .literal <|
      "\n\n\n\n// ----- Key Positions -----\n\n" ++
      "// One entry per scan code starting at 1: x, y, z, rx, ry, rz in mm\n",
     .slot .positionTable,
     .literal "\n"]

/-- The source with the tables of the lights. -/
def pixelSource : Template where
  name := "kiibohdPixelmap.c"
  segments :=
    [.slot .information,
     .literal <|
      "\n\n// ----- Includes -----\n\n#include <kll.h>\n#include <kll_defs.h>\n" ++
      "#include <pixel.h>\n\n\n\n// ----- Buffers -----\n\n",
     .slot .ledBufferStruct,
     .literal "\n\n",
     .slot .bufferTable,
     .literal <|
      "\n\n\n\n// ----- Pixel Mapping -----\n\n" ++
      "// Pixel id to channels, index 0 is pixel 1\n",
     .slot .pixelTable,
     .literal "\n\n// Scan code to pixel id, index 0 is scan code 1 (0 = no pixel)\n",
     .slot .scanToPixel,
     .literal "\n\n// Scan code to display mapping offset, index 0 is scan code 1\n",
     .slot .scanToDisplay,
     .literal "\n\n// Row-major display grid of pixel ids (0 = empty)\n",
     .slot .displayTable,
     .literal "\n\n\n\n// ----- Animations -----\n\n",
     .slot .frames,
     .literal "\n\n",
     .slot .animationTable,
     .literal "\n\n// Default settings per animation, followed by named settings\n",
     .slot .settingsTable,
     .literal "\n"]

/-- The header with the definitions. -/
def definesHeader : Template where
  name := "kiibohdDefs.h"
  segments :=
    [.slot .information,
     .literal "\n\n#pragma once\n\n// ----- Configuration Defines -----\n",
     .slot .defines,
     .literal "\n\n// ----- Table Sizes -----\n\n",
     .slot .sizeDefines,
     .literal "\n\n",
     .slot .boardCount,
     .literal "\n\n// ----- Capability Indices -----\n\n",
     .slot .capabilityIndices,
     .literal "\n\n// ----- Animation Ids -----\n",
     .slot .animationIndices,
     .literal "\n"]

end Template

namespace Templates

/-- The standard templates. -/
def standard : Templates := ⟨.keymapHeader, .pixelSource, .definesHeader⟩

/-- The placeholders that some template uses. -/
def used (templates : Templates) : List Placeholder :=
  templates.keymap.placeholders ++ templates.pixelMap.placeholders ++
    templates.defines.placeholders

/-- The placeholders that no template uses. -/
def unused (templates : Templates) : List Placeholder :=
  Placeholder.all.filter fun p => decide (p ∉ templates.used)

example : standard.unused = [] := by decide

end Templates

end Keymap
