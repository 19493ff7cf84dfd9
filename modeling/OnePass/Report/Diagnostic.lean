import OnePass.Source.Position
import OnePass.Text.Style

/-! # Diagnostics

    Errors and warnings about a place in the source. -/

namespace OnePass

inductive Severity where
  | error
  | warning
  deriving DecidableEq, Repr

def Severity.name : Severity → String
  | error   => "error"
  | warning => "warning"

/-- The colour in which a severity is shown. -/
def Severity.colour : Severity → Text.Style
  | error   => .red
  | warning => .yellow

/-- A message about a place in the source. -/
structure Diagnostic where
  severity : Severity
  position : Position
  message : String
  deriving DecidableEq, Repr

namespace Diagnostic

/-- The plain form. -/
def text (d : Diagnostic) : String :=
  d.position.text ++ ": " ++ d.severity.name ++ ": " ++ d.message

/-- The form for terminals. -/
def styled (d : Diagnostic) : String :=
  Text.Style.escape .bold ++ d.position.text ++ ":" ++ Text.Style.escape .plainWeight ++ " "
    ++ d.severity.colour.escape ++ Text.Style.escape .bold ++ d.severity.name
    ++ Text.Style.escape .plainColour ++ Text.Style.escape .plainWeight ++ ": " ++ d.message

end Diagnostic

end OnePass
