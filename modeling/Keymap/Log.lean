import Keymap.Template.Standard
import Keymap.Validation
import Keymap.Config.Load

/-!
# The log of a run

What a run tells beside its result: what was read and assembled, warnings, and
listings that no template uses. Each stage has its entries, computed from what
the stage has at hand.
-/

namespace Keymap

namespace Log

/-- How much an entry matters. -/
inductive Level where
  | debug
  | info
  | warn
  deriving DecidableEq

namespace Level

/-- The place of a level in their order. -/
def rank : Level → Nat
  | .debug => 0
  | .info => 1
  | .warn => 2

/-- The word for a level. -/
def text : Level → String
  | .debug => "DEBUG"
  | .info => "INFO"
  | .warn => "WARN"

end Level

/-- The value of a field: a name is written as it is, and a word in quotes. -/
inductive Value where
  | name (text : String)
  | word (text : String)
  | count (n : Nat)

/-- The text of a value. -/
def Value.text : Value → String
  | .name text => text
  | .word text => "\"" ++ text ++ "\""
  | .count n => toString n

/-- An entry of a log. -/
structure Entry where
  level : Level
  message : String
  fields : List (String × Value)

namespace Entry

/-- The line of an entry. -/
def text (entry : Entry) : String :=
  entry.level.text ++ " " ++ entry.message ++
    String.join (entry.fields.map fun (key, value) => " " ++ key ++ "=" ++ value.text)

end Entry

/-- The entries that matter at least as much as a level. -/
def atLeast (level : Level) (entries : List Entry) : List Entry :=
  entries.filter fun entry => decide (level.rank ≤ entry.level.rank)

end Log

open Log

namespace Config

/-- The entry on a configuration that is ready for use. -/
def loadedEntry (config : Config) : Entry where
  level := .debug
  message := "loaded configuration"
  fields :=
    [("name", .name config.name), ("layers", .count config.layers.length),
     ("triggers", .count config.triggers.length), ("results", .count config.results.length)]

/-- The entries on bringing a configuration up to date. -/
def settleLog (config : Config) : List Entry :=
  match config.migrate with
  | .error _ => []
  | .ok (config, migrated) =>
    (if migrated then
      [⟨.info, s!"migrated configuration to schema version {currentVersion.toNat}",
        [("name", .name config.name)]⟩]
     else []) ++
      match config.sane with
      | .ok () => [config.loadedEntry]
      | .error _ => []

end Config

namespace Assembly

/-- The entry on a layer. -/
def layerEntry (layer : LayerRow) : Entry :=
  ⟨.debug, "built layer",
    [("layer", .name layer.name), ("scan_codes", .count layer.map.lists.length)]⟩

/-- The entry on an animation. -/
def animationEntry (animation : Animation.Compiled) : Entry :=
  ⟨.debug, "compiled animation",
    [("animation", .name animation.name), ("frames", .count animation.frames.length)]⟩

/-- The entries on assembling the tables. -/
def buildLog (assembly : Assembly) : List Entry :=
  assembly.layers.map layerEntry ++ assembly.animations.map animationEntry ++
    [⟨.debug, "assembled tables",
      [("name", .name assembly.config.name),
       ("capabilities", .count assembly.capabilities.length),
       ("results", .count assembly.results.length),
       ("triggers", .count assembly.triggers.length),
       ("trigger_guides", .count assembly.guides.length),
       ("layers", .count assembly.layers.length),
       ("animations", .count assembly.animations.length)]⟩]

/-- The entry on a run that succeeded. -/
def doneEntry (assembly : Assembly) : Entry :=
  ⟨.info, "generated keymap",
    [("config", .name assembly.config.name), ("results", .count assembly.results.length),
     ("triggers", .count assembly.triggers.length),
     ("layers", .count assembly.layers.length)]⟩

end Assembly

/-- The entry on a finding that does not keep the tables from being written. -/
def Finding.entry (finding : Finding) : Entry :=
  ⟨.warn, finding.fault.message,
    [("check", .word finding.check.id), ("symbol", .name finding.symbol)]⟩

/-- The placeholders that no template uses although they have something to list. -/
def Templates.neglected (templates : Templates) (assembly : Assembly) : List Placeholder :=
  templates.unused.filter fun p => ((p.text? assembly).getD "") ≠ ""

/-- The entries on placeholders that no template uses. -/
def Templates.neglectLog (templates : Templates) (assembly : Assembly) : List Entry :=
  (templates.neglected assembly).map fun p =>
    ⟨.warn, "generated table is not used by any template", [("placeholder", .word p.name)]⟩

end Keymap
