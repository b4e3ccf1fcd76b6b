import ProgramCheck.Position

/-!
# Diagnostics

A diagnostic is what a check has to say about one position of a program: an error, which keeps the
program from being accepted, or a warning, which does not.
-/

namespace ProgramCheck

/-- How grave a diagnostic is. -/
inductive Severity where
  | error
  | warning
  deriving DecidableEq

/-- The word that introduces a diagnostic of this severity. -/
def Severity.display : Severity → String
  | .error => "error"
  | .warning => "warning"

/-- An error or a warning at a position. -/
structure Diagnostic where
  severity : Severity
  position : Position
  message : String
  deriving DecidableEq

namespace Diagnostic

/-- Whether the diagnostic is an error. -/
def isError (d : Diagnostic) : Bool := d.severity == .error

/-- The same diagnostic with the severity of an error. -/
def asError (d : Diagnostic) : Diagnostic := { d with severity := .error }

/-- The diagnostic as one line of text, `line:column: severity: message`. -/
def display (d : Diagnostic) : String :=
  d.position.display ++ ": " ++ d.severity.display ++ ": " ++ d.message

@[simp] theorem isError_asError (d : Diagnostic) : d.asError.isError = true := rfl

end Diagnostic

end ProgramCheck
