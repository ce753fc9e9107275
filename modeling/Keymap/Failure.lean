import Keymap.Fault
import Keymap.Report
import Keymap.Schema.Error

/-!
# Failures

A failure ends a whole run. It carries the fault that caused it; failures
without a class of their own — of the file system, of reading a configuration,
and others — also carry the operation during which they happened.
-/

namespace Keymap

/-- What was being done when a failure happened. -/
structure Context where
  operation : String
  pairs : List (String × String) := []
  deriving DecidableEq

/-- The wording of a context. -/
def Context.text (context : Context) : String :=
  "operation: " ++ context.operation ++
    String.join (context.pairs.map fun pair => ", " ++ pair.1 ++ ": " ++ pair.2)

/-- What the file system answers. -/
inductive IoFault where
  | notFound
  | notDirectory
  | isDirectory
  | alreadyExists
  | busy
  | nameTooLong
  | zeroByte
  | notText
  | described (message : String)

/-- The wording of an answer of the file system. -/
def IoFault.message : IoFault → String
  | .notFound => "No such file or directory (os error 2)"
  | .notDirectory => "Not a directory (os error 20)"
  | .isDirectory => "Is a directory (os error 21)"
  | .alreadyExists => "File exists (os error 17)"
  | .busy => "Device or resource busy (os error 16)"
  | .nameTooLong => "File name too long (os error 36)"
  | .zeroByte => "file name contained an unexpected NUL byte"
  | .notText => "stream did not contain valid UTF-8"
  | .described message => message

/-- Why a configuration cannot be used. -/
inductive ConfigFault where
  | malformedJson
  | malformedYaml
  | schema (error : SchemaError)
  | futureVersion (version supported : Nat)
  | noLayers
  | stateWordSize (bits : Nat)
  | described (message : String)

/-- The wording of why a configuration cannot be used. -/
def ConfigFault.message : ConfigFault → String
  | .malformedJson => "malformed JSON text"
  | .malformedYaml => "malformed YAML text"
  | .schema error => error.message
  | .futureVersion version supported =>
    s!"unsupported schema version {version}: maximum supported is {supported}"
  | .noLayers => "at least one (default) layer is required"
  | .stateWordSize bits => s!"state_word_size must be 8, 16 or 32, got {bits}"
  | .described message => message

/-- The end of a run without a result. The contexts of a failure stand from the
outermost to the innermost. -/
inductive Failure where
  | reference (fault : ReferenceFault)
  | range (fault : RangeFault)
  | shape (fault : ShapeFault)
  | template (fault : TemplateFault)
  | validation (report : Report)
  | io (contexts : List Context) (fault : IoFault)
  | config (contexts : List Context) (fault : ConfigFault)
  | other (contexts : List Context) (message : String)

namespace Failure

/-- The failure of a finding's fault. -/
def ofFault : Fault → Failure
  | .reference fault => .reference fault
  | .range fault => .range fault
  | .shape fault => .shape fault

/-- A text behind the contexts in which it was said. -/
def within (contexts : List Context) (text : String) : String :=
  contexts.foldr (fun context text => context.text ++ ": " ++ text) text

/-- The wording of a failure. -/
def message : Failure → String
  | .reference fault => "Reference error: " ++ fault.message
  | .range fault => "Range error: " ++ fault.message
  | .shape fault => "Shape error: " ++ fault.message
  | .template fault => "Template error: " ++ fault.message
  | .validation report => "Validation failed: " ++ report.text
  | .io contexts fault => "I/O error: " ++ within contexts fault.message
  | .config contexts fault => "Configuration error: " ++ within contexts fault.message
  | .other contexts text => within contexts text

/-- The wording of the fault that caused a failure, where the failure has one of its own. -/
def cause? : Failure → Option String
  | .reference fault => some fault.message
  | .range fault => some fault.message
  | .shape fault => some fault.message
  | .template fault => some fault.message
  | .io contexts fault => some (within contexts fault.message)
  | .validation _ | .config _ _ | .other _ _ => none

/-- The class of a failure; a failed validation has the class of its first error. -/
def category : Failure → Category
  | .reference _ => .reference
  | .range _ => .range
  | .shape _ => .shape
  | .template _ => .template
  | .validation report => report.category
  | .io _ _ => .io
  | .config _ _ => .config
  | .other _ _ => .other

/-- The severity of a failure. -/
def severity : Failure → Severity
  | .template _ | .io _ _ | .config _ _ => .critical
  | _ => .error

/-- The failure leaves nothing to collect. -/
def isFatal (failure : Failure) : Bool :=
  decide (Severity.critical.rank ≤ failure.severity.rank)

/-- The status with which a program ends after the failure. -/
def exitCode (failure : Failure) : Nat := failure.category.exitCode

/-- Add an outer context, unless the failure has a class that says enough. -/
def addContext (context : Context) : Failure → Failure
  | .io contexts fault => .io (context :: contexts) fault
  | .config contexts fault => .config (context :: contexts) fault
  | .other contexts text => .other (context :: contexts) text
  | failure => failure

end Failure

/-- A report is a result unless it holds an error. -/
def Report.toExcept (report : Report) : Except Failure Report :=
  if report.hasErrors then .error (.validation report) else .ok report

end Keymap
