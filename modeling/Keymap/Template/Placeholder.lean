import Keymap.Listing.Animations
import Keymap.Listing.Guides
import Keymap.Listing.Layout
import Keymap.Listing.Places

/-!
# Placeholders

A template names a listing by a placeholder. Nine placeholders stand for
listings that exist only with a pixel section.
-/

namespace Keymap

/-- The listings that a template may name. -/
inductive Placeholder where
  | information
  | capabilityFunctions
  | capabilityTable
  | resultGuides
  | resultTable
  | triggerGuides
  | triggerTable
  | triggerRecords
  | maxScanCode
  | defaultTriggerLists
  | partialTriggerLists
  | offsetTable
  | defaultScanMap
  | partialScanMaps
  | layerIndex
  | layerStates
  | rotationTable
  | positionTable
  | ledBufferStruct
  | bufferTable
  | pixelTable
  | displayTable
  | frames
  | animationTable
  | settingsTable
  | scanToPixel
  | scanToDisplay
  | defines
  | capabilityIndices
  | sizeDefines
  | animationIndices
  | boardCount
  deriving DecidableEq

namespace Placeholder

/-- All placeholders. -/
def all : List Placeholder :=
  [.information, .capabilityFunctions, .capabilityTable, .resultGuides, .resultTable,
   .triggerGuides, .triggerTable, .triggerRecords, .maxScanCode, .defaultTriggerLists,
   .partialTriggerLists, .offsetTable, .defaultScanMap, .partialScanMaps, .layerIndex,
   .layerStates, .rotationTable, .positionTable, .ledBufferStruct, .bufferTable, .pixelTable,
   .displayTable, .frames, .animationTable, .settingsTable, .scanToPixel, .scanToDisplay,
   .defines, .capabilityIndices, .sizeDefines, .animationIndices, .boardCount]

/-- The name of a placeholder in templates. -/
def name : Placeholder → String
  | .information => "Information"
  | .capabilityFunctions => "CapabilitiesFuncDecl"
  | .capabilityTable => "CapabilitiesList"
  | .resultGuides => "ResultMacros"
  | .resultTable => "ResultMacroList"
  | .triggerGuides => "TriggerMacros"
  | .triggerTable => "TriggerMacroList"
  | .triggerRecords => "TriggerMacroRecord"
  | .maxScanCode => "MaxScanCode"
  | .defaultTriggerLists => "DefaultLayerTriggerList"
  | .partialTriggerLists => "PartialLayerTriggerLists"
  | .offsetTable => "ScanCodeInterconnectOffsetList"
  | .defaultScanMap => "DefaultLayerScanMap"
  | .partialScanMaps => "PartialLayerScanMaps"
  | .layerIndex => "LayerIndexList"
  | .layerStates => "LayerState"
  | .rotationTable => "RotationParameters"
  | .positionTable => "KeyPositions"
  | .ledBufferStruct => "LEDBufferStruct"
  | .bufferTable => "PixelBufferSetup"
  | .pixelTable => "PixelMapping"
  | .displayTable => "PixelDisplayMapping"
  | .frames => "AnimationFrames"
  | .animationTable => "Animations"
  | .settingsTable => "AnimationSettings"
  | .scanToPixel => "ScanCodeToPixelMapping"
  | .scanToDisplay => "ScanCodeToDisplayMapping"
  | .defines => "Defines"
  | .capabilityIndices => "CapabilitiesIndices"
  | .sizeDefines => "KLLDefines"
  | .animationIndices => "AnimationList"
  | .boardCount => "InterconnectNodeMax"

/-- The placeholder with a name. -/
def ofName? (name : String) : Option Placeholder := all.find? fun p => decide (p.name = name)

/-- The listing exists only with a pixel section. -/
def needsPixels : Placeholder → Bool
  | .ledBufferStruct | .bufferTable | .pixelTable | .displayTable | .frames | .animationTable
  | .settingsTable | .scanToPixel | .scanToDisplay => true
  | _ => false

/-- The text of a placeholder, if the configuration has what it lists. -/
def text? (assembly : Assembly) : Placeholder → Option String
  | .information => some (Listing.information assembly)
  | .capabilityFunctions => some (Listing.capabilityFunctions assembly)
  | .capabilityTable => some (Listing.capabilityTable assembly)
  | .resultGuides => some (Listing.resultGuides assembly)
  | .resultTable => some (Listing.resultTable assembly)
  | .triggerGuides => some (Listing.triggerGuides assembly)
  | .triggerTable => some (Listing.triggerTable assembly)
  | .triggerRecords => some Listing.triggerRecords
  | .maxScanCode => some (Listing.maxScanCode assembly)
  | .defaultTriggerLists => some (Listing.defaultTriggerLists assembly)
  | .partialTriggerLists => some (Listing.partialTriggerLists assembly)
  | .offsetTable => some (Listing.offsetTable assembly)
  | .defaultScanMap => some (Listing.defaultScanMap assembly)
  | .partialScanMaps => some (Listing.partialScanMaps assembly)
  | .layerIndex => some (Listing.layerIndex assembly)
  | .layerStates => some (Listing.layerStates assembly)
  | .rotationTable => some (Listing.rotationTable assembly)
  | .positionTable => some (Listing.positionTable assembly)
  | .ledBufferStruct => assembly.pixels.map Listing.ledBufferStruct
  | .bufferTable => assembly.pixels.map Listing.bufferTable
  | .pixelTable => assembly.pixels.map Listing.pixelTable
  | .displayTable => assembly.pixels.map Listing.displayTable
  | .scanToPixel => assembly.pixels.map Listing.scanToPixel
  | .scanToDisplay => assembly.pixels.map Listing.scanToDisplay
  | .frames => assembly.pixels.map fun _ => Listing.frames assembly
  | .animationTable => assembly.pixels.map fun _ => Listing.animationTable assembly
  | .settingsTable => assembly.pixels.map fun _ => Listing.settingsTable assembly
  | .defines => some (Listing.defines assembly)
  | .capabilityIndices => some (Listing.capabilityIndices assembly)
  | .sizeDefines => some (Listing.sizeDefines assembly)
  | .animationIndices => some (Listing.animationIndices assembly)
  | .boardCount => some (Listing.boardCount assembly)

/-- A placeholder has a text unless it needs a pixel section that is missing. -/
theorem text?_isSome (assembly : Assembly) (p : Placeholder) :
    (p.text? assembly).isSome = (!p.needsPixels || assembly.pixels.isSome) := by
  cases p <;> simp [text?, needsPixels]

theorem mem_all (p : Placeholder) : p ∈ all := by cases p <;> decide

end Placeholder

end Keymap
