import EntityScaffold.Data.Value
import EntityScaffold.Text.Case

/-!
# Diagnostics

A diagnostic has a severity, a code, a message and a context of named values. A report is a list
of them in the order in which they were found; it passes when it holds no error.

Model of `Diagnostic` and `ValidationResult`.
-/

namespace EntityScaffold

/-- How grave a diagnostic is. -/
inductive Severity where
  | error
  | warning
  | info
  deriving DecidableEq

namespace Severity

/-- The word for a severity. -/
def word : Severity → String
  | .error => "error"
  | .warning => "warning"
  | .info => "info"

/-- The mark before a message. -/
def mark : Severity → String
  | .error => "✗"
  | .warning => "⚠"
  | .info => "ℹ"

end Severity

/-- A diagnostic. -/
structure Diagnostic where
  severity : Severity
  code : String
  message : String
  /-- An object of named values. -/
  context : Value := .object []

/-- A diagnostic on one line. -/
def Diagnostic.display (d : Diagnostic) : String :=
  s!"[{Text.upperCase d.severity.word}] {d.code}: {d.message}"

/-- The members of a diagnostic as a document. -/
def Diagnostic.toValue (d : Diagnostic) : Value :=
  .ofMembers [("level", .text d.severity.word), ("code", .text d.code),
    ("message", .text d.message), ("context", d.context)]

/-- Diagnostics in the order in which they were found. -/
abbrev DiagnosticReport := List Diagnostic

namespace DiagnosticReport

/-- The diagnostics of one severity. -/
def ofSeverity (s : Severity) (r : DiagnosticReport) : List Diagnostic :=
  r.filter fun d => d.severity == s

def errors (r : DiagnosticReport) : List Diagnostic := ofSeverity .error r

def warnings (r : DiagnosticReport) : List Diagnostic := ofSeverity .warning r

def infos (r : DiagnosticReport) : List Diagnostic := ofSeverity .info r

/-- The report holds an error. -/
def hasErrors (r : DiagnosticReport) : Bool := r.any fun d => d.severity == .error

/-- The report holds no error. -/
def passes (r : DiagnosticReport) : Bool := !hasErrors r

/-- The numbers of errors, warnings and diagnostics. -/
def summary (r : DiagnosticReport) : String :=
  s!"Diagnostics: {(errors r).length} error(s), {(warnings r).length} warning(s), " ++
    s!"{r.length} total item(s)."

/-- A report as messages show it. -/
def display (r : DiagnosticReport) : String := s!"<ValidationResult {summary r}>"

/-- The line of a diagnostic in a report. -/
def lineOf (d : Diagnostic) : String := s!"  {d.severity.mark} [{d.code}] {d.message}"

/-- The report as text, with or without what is only informative. -/
def text (includeInfo : Bool) (r : DiagnosticReport) : String :=
  "\n".intercalate (summary r :: "" ::
    (r.filter fun d => includeInfo || d.severity != .info).map lineOf)

end DiagnosticReport

end EntityScaffold
