import Keymap.CommandLine.Run
import Keymap.Document.Json

/-!
# Printing

A command answers with text, or with a document if it is asked for one. The
document stands on the standard output also if the command fails, whereas texts
about failures and findings go to the standard error.
-/

namespace Keymap.CommandLine

/-- What a command prints, and the status with which it ends. -/
structure Printed where
  code : Nat := 0
  output : String := ""
  errors : String := ""
  deriving DecidableEq

/-- A text on a line of its own. -/
def line (text : String) : String := text ++ "\n"

/-- Lines of text. -/
def lines (texts : List String) : String := String.join (texts.map line)

/-- The line of a finding. -/
def findingLine (finding : Finding) : String := "  " ++ finding.text

/-- The document of a finding. -/
def findingJson (finding : Finding) : Json :=
  .object
    [("category", .string finding.fault.category.text),
     ("check", .string finding.check.id),
     ("message", .string finding.fault.message),
     ("severity", .string finding.severity.text),
     ("symbol", .string finding.symbol)]

/-- The document of a report. -/
def reportJson (report : Report) : Json := .array (report.findings.map findingJson)

namespace Failure

/-- The document of a failure. -/
def json (failure : Failure) : Json :=
  let own : List (String × Json) :=
    [("error", .object
      [("message", .string failure.message), ("type", .string failure.category.text)]),
     ("success", .bool false)]
  match failure.report? with
  | some report => .object (("diagnostics", reportJson report) :: own)
  | none => .object own

/-- The lines behind the first one about a failure: its findings, or else its cause. -/
def details (failure : Failure) : List String :=
  match failure.report? with
  | some report => report.findings.map findingLine
  | none => failure.cause?.toList.map fun cause => "  Caused by: " ++ cause

/-- What is printed about a failure. -/
def printed (failure : Failure) (json : Bool) : Printed :=
  if json then { code := failure.exitCode, output := line failure.json.text }
  else
    { code := failure.exitCode
      errors := lines (("Error: " ++ failure.message) :: failure.details) }

end Failure

namespace Answer

/-- The document of an answer. -/
def json : Answer → Json
  | .generated name paths =>
    .object
      [("config", .string name), ("outputs", .array (paths.map .string)), ("success", .bool true)]
  | .valid name report =>
    .object
      [("config", .string name), ("diagnostics", reportJson report), ("success", .bool true)]
  | .placeholders =>
    .object
      [("placeholders", .array (Placeholder.all.map fun p =>
        .object [("name", .string p.name), ("needs_pixels", .bool p.needsPixels)])),
       ("success", .bool true)]

/-- The line of a placeholder. -/
def placeholderLine (p : Placeholder) : String :=
  "  <|" ++ p.name ++ "|>" ++ if p.needsPixels then " (pixel section)" else ""

/-- The text of an answer, and the text about it. -/
def texts : Answer → Printed
  | .generated name paths =>
    { output := lines (("✓ Generated " ++ name) :: paths.map ("  → " ++ ·)) }
  | .valid name report =>
    let warnings := report.warnings.length
    { output := line (s!"✓ {name} is valid" ++
        if warnings = 0 then "" else s!" with {warnings} warning(s)")
      errors := lines (report.findings.map findingLine) }
  | .placeholders =>
    { output := lines ("Template placeholders:" :: Placeholder.all.map placeholderLine) }

/-- What is printed for an answer. -/
def printed (answer : Answer) (json : Bool) : Printed :=
  if json then { output := line answer.json.text } else answer.texts

end Answer

variable {m : Type → Type} [Monad m] {τ : Type}

/-- Run an invocation, and tell what is printed. -/
def Invocation.run (files : FileSystem m τ) (invocation : Invocation) : m Printed := do
  match ← (invocation.command.run files).run with
  | .ok answer => return answer.printed invocation.json
  | .error failure => return failure.printed invocation.json

end Keymap.CommandLine
