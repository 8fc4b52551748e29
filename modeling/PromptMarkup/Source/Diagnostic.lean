/-
**Diagnostics.**

Every stage of a compilation reports what it finds as diagnostics and goes on.

* `Diagnostic`: a message about a range, with its severity and stage;
* `firstError?`, `hasErrors`: what a caller that wants no errors looks at.
-/

import PromptMarkup.Source.Span

namespace PromptMarkup

/-- How grave a diagnostic is. -/
inductive Severity where
  | error
  | warning
  | information
  | hint
  deriving DecidableEq, Repr

/-- The word for a severity. -/
def Severity.name : Severity → String
  | error => "error"
  | warning => "warning"
  | information => "information"
  | hint => "hint"

/-- The part of a compilation that reports. -/
inductive Stage where
  | parse
  | evaluate
  | schema
  | write
  deriving DecidableEq, Repr

/-- The word for a stage. -/
def Stage.name : Stage → String
  | parse => "parse"
  | evaluate => "evaluate"
  | schema => "schema"
  | write => "write"

/-- A message about a range of the source. -/
structure Diagnostic where
  span : Span
  severity : Severity
  stage : Stage
  message : String
  deriving DecidableEq, Repr

namespace Diagnostic

/-- A diagnostic that makes the compilation fail. -/
def isError (diagnostic : Diagnostic) : Bool := diagnostic.severity = .error

/-- An error of a stage. -/
def error (stage : Stage) (span : Span) (message : String) : Diagnostic :=
  ⟨span, .error, stage, message⟩

/-- A warning of a stage. -/
def warning (stage : Stage) (span : Span) (message : String) : Diagnostic :=
  ⟨span, .warning, stage, message⟩

/-- A diagnostic as text. -/
def text (diagnostic : Diagnostic) : String :=
  diagnostic.span.text ++ ": " ++ diagnostic.message ++ " [" ++ diagnostic.stage.name ++ "]"

end Diagnostic

/-- One of the diagnostics is an error. -/
def hasErrors (diagnostics : List Diagnostic) : Bool := diagnostics.any Diagnostic.isError

/-- The first error. -/
def firstError? (diagnostics : List Diagnostic) : Option Diagnostic :=
  diagnostics.find? Diagnostic.isError

end PromptMarkup
