import Keymap.Assembly.Build
import Keymap.Listing.Layout
import Keymap.Listing.Names

/-!
# Listings of capabilities, results and triggers

A guide is listed token by token. Counts and indices are decimal; the other
bytes have names or are written in base sixteen. The count of a combo is its
true length, even where a byte could not hold it.
-/

namespace Keymap.Listing

/-- The declarations of the functions of capabilities. -/
def capabilityFunctions (assembly : Assembly) : String :=
  lines (assembly.capabilities.map fun capability =>
    "void " ++ capability.function ++
      "( TriggerMacro *trigger, uint8_t state, uint8_t stateType, uint8_t *args );")

/-- The name of a feature. -/
def featureName : Config.Feature → String
  | .safe => "CapabilityFeature_Safe"
  | .none => "CapabilityFeature_None"

/-- The table of capabilities. -/
def capabilityTable (assembly : Assembly) : String :=
  table "const Capability CapabilitiesList[]" <|
    assembly.capabilities.zipIdx.map fun (capability, i) =>
      row ("/* " ++ toString i ++ " " ++ capability.name ++ " */") ++
        row ("\x7b " ++ capability.function ++ ", " ++ toString capability.argBytes ++ ", " ++
          featureName capability.feature ++ " \x7d,")

/-- The name of the index of a capability. -/
def capabilityIndexName (capability : Config.Capability) : String :=
  capability.function ++ "_index"

/-- The indices of the capabilities. -/
def capabilityIndices (assembly : Assembly) : String :=
  braced "typedef enum CapabilityIndex"
    (assembly.capabilities.map fun capability => row (capabilityIndexName capability ++ ","))
    " CapabilityIndex;"

/-- The tokens of a guide. -/
def guideTokens (element : α → List String) (combos : List (List α)) : List String :=
  (combos.flatMap fun combo => toString combo.length :: combo.flatMap element) ++ ["0"]

/-- The tokens of a call. -/
def callTokens (call : Guide.Call) : List String :=
  toString call.capability.toNat :: call.args.map byte

/-- The tokens of a condition. -/
def conditionTokens (condition : Guide.Condition) : List String :=
  [typeName condition.type, stateText condition.state, byte condition.uid]

/-- The tokens of a result guide. -/
def resultTokens (combos : Guide.ResultCombos) : List String := guideTokens callTokens combos

/-- The tokens of a trigger guide. -/
def triggerTokens (combos : Guide.TriggerCombos) : List String :=
  guideTokens conditionTokens combos

/-- The line of a guide, with the names of those that use it. -/
def guideLine (kind : String) (index : Nat) (items : List String) (users : List String) :
    String :=
  inlined ("Guide_" ++ kind ++ "( " ++ toString index ++ " )") items ++ " // " ++ tokens users

/-- The guides of the results. -/
def resultGuides (assembly : Assembly) : String :=
  lines (assembly.results.zipIdx.map fun (result, i) =>
    guideLine "RM" i (resultTokens result.combos) [result.name])

/-- The table of results. -/
def resultTable (assembly : Assembly) : String :=
  table "const ResultMacro ResultMacroList[]" <|
    assembly.results.zipIdx.map fun (result, i) =>
      row ("Define_RM( " ++ toString i ++ " ), // " ++ result.name)

/-- The guides of the triggers. -/
def triggerGuides (assembly : Assembly) : String :=
  lines (assembly.guides.zipIdx.map fun (guide, i) =>
    guideLine "TM" i (triggerTokens guide.combos) guide.users)

/-- The table of triggers; a trigger without a result has the index zero. -/
def triggerTable (assembly : Assembly) : String :=
  table "const TriggerMacro TriggerMacroList[]" <|
    assembly.triggers.zipIdx.map fun (trigger, i) =>
      row ("/* " ++ toString i ++ " */ Define_TM( " ++ toString trigger.guide ++ ", " ++
        toString (trigger.result.getD 0) ++ " ), // " ++ trigger.name)

/-- The records of the triggers, which the firmware fills. -/
def triggerRecords : String := "TriggerMacroRecord TriggerMacroRecordList[ TriggerMacroNum ];"

end Keymap.Listing
