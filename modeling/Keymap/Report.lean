import Keymap.Fault

/-!
# Reports

Checking does not stop at the first mistake: every violated check becomes a
finding with the symbol it is about, and a report holds the findings in the
order in which they were made. Only findings of error severity keep the tables
from being written.
-/

namespace Keymap

/-- How grave a finding or failure is, from the least to the gravest. -/
inductive Severity where
  | info
  | warning
  | error
  | critical
  deriving DecidableEq

namespace Severity

/-- The place of a severity in their order. -/
def rank : Severity → Nat
  | .info => 0
  | .warning => 1
  | .error => 2
  | .critical => 3

/-- The word for a severity. -/
def text : Severity → String
  | .info => "INFO"
  | .warning => "WARN"
  | .error => "ERROR"
  | .critical => "CRITICAL"

end Severity

/-- The class of a finding or failure. -/
inductive Category where
  | reference
  | range
  | shape
  | template
  | io
  | config
  | other
  deriving DecidableEq

namespace Category

/-- The status with which a program ends after a failure of the class. -/
def exitCode : Category → Nat
  | .reference => 2
  | .range => 3
  | .shape => 4
  | .template => 5
  | .io => 6
  | .config => 7
  | .other => 1

/-- The word for a class. -/
def text : Category → String
  | .reference => "ReferenceError"
  | .range => "RangeError"
  | .shape => "ShapeError"
  | .template => "TemplateError"
  | .io => "IOError"
  | .config => "ConfigError"
  | .other => "Error"

end Category

/-- The checks of a configuration and its tables. -/
inductive Check where
  | resultResolves
  | capabilityArguments
  | scanCodeRange
  | pixelChannels
  | scanCodePixels
  | frameTermination
  | indexContiguity
  | maxScanCode
  | displayMap
  | bufferLayout
  | animationReferences
  | routing
  | stateWordSize
  | interconnect
  | keyPositions
  | frameFormat
  | layerBindings
  | triggerEncoding
  | comboShape
  | duplicates
  deriving DecidableEq

/-- The name of a check. -/
def Check.id : Check → String
  | .resultResolves => "result-resolves"
  | .capabilityArguments => "capability-arguments"
  | .scanCodeRange => "scan-code-range"
  | .pixelChannels => "pixel-channels"
  | .scanCodePixels => "scan-code-pixels"
  | .frameTermination => "frame-termination"
  | .indexContiguity => "index-contiguity"
  | .maxScanCode => "max-scan-code"
  | .displayMap => "display-map"
  | .bufferLayout => "buffer-layout"
  | .animationReferences => "animation-references"
  | .routing => "routing"
  | .stateWordSize => "state-word-size"
  | .interconnect => "interconnect"
  | .keyPositions => "key-positions"
  | .frameFormat => "frame-format"
  | .layerBindings => "layer-bindings"
  | .triggerEncoding => "trigger-encoding"
  | .comboShape => "combo-shape"
  | .duplicates => "duplicates"

/-- All checks. -/
def Check.all : List Check :=
  [.resultResolves, .capabilityArguments, .scanCodeRange, .pixelChannels, .scanCodePixels,
   .frameTermination, .indexContiguity, .maxScanCode, .displayMap, .bufferLayout,
   .animationReferences, .routing, .stateWordSize, .interconnect, .keyPositions, .frameFormat,
   .layerBindings, .triggerEncoding, .comboShape, .duplicates]

/-- The cause of a finding. -/
inductive Fault where
  | reference (fault : ReferenceFault)
  | range (fault : RangeFault)
  | shape (fault : ShapeFault)
  deriving DecidableEq

namespace Fault

/-- The class of a cause. -/
def category : Fault → Category
  | .reference _ => .reference
  | .range _ => .range
  | .shape _ => .shape

/-- The wording of a cause. -/
def message : Fault → String
  | .reference fault => fault.message
  | .range fault => fault.message
  | .shape fault => fault.message

instance : Coe ReferenceFault Fault := ⟨.reference⟩
instance : Coe RangeFault Fault := ⟨.range⟩
instance : Coe ShapeFault Fault := ⟨.shape⟩

end Fault

/-- A violated check, with the symbol it is about and the cause. -/
structure Finding where
  check : Check
  symbol : String
  severity : Severity
  fault : Fault
  deriving DecidableEq

namespace Finding

/-- A finding of error severity. -/
def error (check : Check) (symbol : String) (fault : Fault) : Finding :=
  ⟨check, symbol, .error, fault⟩

/-- A finding that does not keep the tables from being written. -/
def warning (check : Check) (symbol : String) (fault : Fault) : Finding :=
  ⟨check, symbol, .warning, fault⟩

/-- The finding keeps the tables from being written. -/
def isError (finding : Finding) : Bool :=
  decide (Severity.error.rank ≤ finding.severity.rank)

/-- The wording of a finding. -/
def text (finding : Finding) : String :=
  finding.severity.text ++ " [" ++ finding.check.id ++ "] " ++ finding.symbol ++ ": " ++
    finding.fault.message

end Finding

/-- The findings of a pass in the order in which they were made. -/
structure Report where
  findings : List Finding := []
  deriving DecidableEq

namespace Report

/-- A report without findings. -/
def empty : Report := {}

/-- Add a finding. -/
def push (report : Report) (finding : Finding) : Report :=
  ⟨report.findings ++ [finding]⟩

/-- Add findings. -/
def append (report : Report) (findings : List Finding) : Report :=
  ⟨report.findings ++ findings⟩

/-- A finding is added behind the others. -/
@[simp]
theorem findings_push (report : Report) (finding : Finding) :
    (report.push finding).findings = report.findings ++ [finding] := rfl

/-- Findings are added behind the others, in order. -/
@[simp]
theorem findings_append (report : Report) (findings : List Finding) :
    (report.append findings).findings = report.findings ++ findings := rfl

/-- The findings of error severity. -/
def errors (report : Report) : List Finding := report.findings.filter (·.isError)

/-- The other findings. -/
def warnings (report : Report) : List Finding := report.findings.filter (!·.isError)

/-- Some finding has error severity. -/
def hasErrors (report : Report) : Bool := report.findings.any (·.isError)

/-- The findings of a check. -/
def byCheck (report : Report) (check : Check) : List Finding :=
  report.findings.filter fun f => decide (f.check = check)

/-- The number of findings of each kind, with the first error. -/
def text (report : Report) : String :=
  let counts :=
    s!"{report.errors.length} error(s), {report.warnings.length} warning(s)"
  match report.errors with
  | [] => counts
  | first :: _ => counts ++ "; first: " ++ first.text

/-- The class of the first error. -/
def category (report : Report) : Category :=
  match report.errors with
  | [] => .other
  | first :: _ => first.fault.category

end Report

end Keymap
