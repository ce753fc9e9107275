import Keymap.Description
import Keymap.Log

/-!
# Generating the outputs

A run assembles a configuration, checks the tables, and fills the templates. It
stops at a report with errors, or else at the first template that names a
listing which the configuration does not have. The pixel source is filled last
and only with a pixel section; without one its text is empty.
-/

namespace Keymap

/-- The texts of a run. -/
structure Outputs where
  keymap : String
  pixelMap : String
  defines : String
  json : String
  deriving DecidableEq

/-- A filled template. -/
def Template.filled (template : Template) (assembly : Assembly) : Except Failure String :=
  match template.render assembly with
  | .ok text => .ok text
  | .error fault => .error (.template fault)

namespace Assembly

/-- The outputs of tables that were checked. -/
def outputs (assembly : Assembly) (templates : Templates) : Except Failure Outputs := do
  let keymap ← templates.keymap.filled assembly
  let defines ← templates.defines.filled assembly
  let pixelMap ← if assembly.pixels.isSome then templates.pixelMap.filled assembly else .ok ""
  return ⟨keymap, pixelMap, defines, assembly.describe.text⟩

/-- The outputs of tables, provided that the checks find no error. -/
def generate (assembly : Assembly) (templates : Templates) : Except Failure Outputs := do
  let _ ← assembly.validate.toExcept
  assembly.outputs templates

/-- The entries of a run on tables. -/
def generateLog (assembly : Assembly) (templates : Templates) : List Log.Entry :=
  match assembly.validate.toExcept with
  | .error _ => []
  | .ok report =>
    report.warnings.map Finding.entry ++ templates.neglectLog assembly ++
      match assembly.outputs templates with
      | .ok _ => [assembly.doneEntry]
      | .error _ => []

end Assembly

namespace Config

/-- The outputs of a configuration. -/
def generate (config : Config) (templates : Templates) : Except Failure Outputs :=
  (Assembly.build config).generate templates

/-- The entries of a run on a configuration. -/
def generateLog (config : Config) (templates : Templates) : List Log.Entry :=
  let assembly := Assembly.build config
  assembly.buildLog ++ assembly.generateLog templates

end Config

end Keymap
