import Keymap.Config.Basic
import Keymap.Document.JsonReader
import Keymap.Failure
import Keymap.FileSystem.Basic
import Keymap.FileSystem.Path
import Keymap.Yaml.Expansion

/-!
# Loading configurations

A document is read, brought up to the current version of the schema, and
checked for what no later stage can do without: a layer, and a state word of a
known size. Configurations from before the versions had no features; those of
their capabilities that are known to be safe are marked so. The name of a file says
in which language it is written, and a failure says which file was to be loaded.
-/

namespace Keymap.Config

/-- The languages of configuration documents. -/
inductive Format where
  | json
  | yaml
  deriving DecidableEq

/-- The language of a file by its name: YAML if the name says so, and else JSON. -/
def Format.ofPath (path : String) : Format :=
  match Path.extension? path with
  | some ext => if ext.toLower = "yaml" || ext.toLower = "yml" then .yaml else .json
  | none => .json

/-- The capabilities that were safe before features were declared. -/
def formerlySafe : List String :=
  ["layerState", "layerLatch", "layerLock", "layerShift", "layerRotate", "testThreadSafe",
   "consCtrlOut", "noneOut", "sysCtrlOut", "usbKeyOut", "mouseOut", "mouseWheelOut", "flashMode"]

/-- A capability with the feature that its name implied. -/
def markSafe (capability : Capability) : Capability :=
  if capability.name ∈ formerlySafe then { capability with feature := .safe } else capability

/-- The configuration in the current version, and whether it had an older one. -/
def migrate (config : Config) : Except Failure (Config × Bool) :=
  if currentVersion < config.schemaVersion then
    .error (.config [] (.futureVersion config.schemaVersion.toNat currentVersion.toNat))
  else if config.schemaVersion = currentVersion then .ok (config, false)
  else
    .ok ({ config with
      schemaVersion := currentVersion
      capabilities := config.capabilities.map markSafe }, true)

/-- What no later stage can do without. -/
def sane (config : Config) : Except Failure Unit :=
  if config.layers.isEmpty then .error (.config [] .noLayers)
  else
    match config.stateWordSize with
    | none => .ok ()
    | some bits =>
      if bits = 8 ∨ bits = 16 ∨ bits = 32 then .ok ()
      else .error (.config [] (.stateWordSize bits.toNat))

/-- The failure of a document that does not fit the schema. -/
def schemaFailure (format : Format) (error : SchemaError) : Failure :=
  match format, error with
  | .json, .malformed => .config [] .malformedJson
  | .json, error => .config [] (.schema error)
  | .yaml, _ => .config [] .malformedYaml

/-- The configuration that a document writes, as it stands. -/
def ofDocument (format : Format) (document : Document) : Except Failure Config :=
  match codec.decode document.root with
  | .error error => .error (schemaFailure format error)
  | .ok config =>
    if document.complete then .ok config else .error (schemaFailure format .malformed)

/-- The document that a text writes in a language. -/
def Format.read : Format → String → Document
  | .json => Document.ofJsonText
  | .yaml => Document.ofYamlText

/-- The configuration that a text writes, as it stands. -/
def ofText (format : Format) (text : String) : Except Failure Config :=
  ofDocument format (format.read text)

/-- The configuration in the current version if it is sane, and whether it had an older one. -/
def settle (config : Config) : Except Failure (Config × Bool) := do
  let (config, migrated) ← config.migrate
  config.sane
  return (config, migrated)

/-- The configuration that a text writes, in the current version and sane. -/
def load (format : Format) (text : String) : Except Failure Config := do
  let (config, _) ← (← ofText format text).settle
  return config

section File

variable {m : Type → Type} [Monad m] {τ : Type}

/-- The configuration that a file holds, in the current version and sane. -/
def loadFile (files : FileSystem m τ) (path : String) : ExceptT Failure m Config :=
  ExceptT.adapt (Failure.addContext ⟨"load_config", [("path", path)]⟩) do
    let text ← (files.readText path).adapt (Failure.io [])
    load (Format.ofPath path) text

end File

end Keymap.Config
