import Formula.Position
import Formula.Text.Layout

/-! Problems found in a text. They are collected while a text is read, and reported together. -/
namespace Formula

inductive Severity where
  | warning
  | error
deriving DecidableEq, Repr, Inhabited

namespace Severity

def label : Severity → String
  | warning => "WARNING"
  | error => "ERROR"

end Severity

structure Problem where
  severity : Severity
  position : Position
  text : String
deriving DecidableEq, Repr, Inhabited

namespace Problem

/-- The text, after its position unless that is unknown. -/
def message (p : Problem) : String :=
  if p.position.line = 0 then p.text
  else Text.padLeft 3 (toString p.position.line) ++ ":"
    ++ Text.padLeft 2 (toString p.position.column) ++ ": " ++ p.text

def isError (p : Problem) : Bool := p.severity = .error

def isWarning (p : Problem) : Bool := p.severity = .warning

instance : ToString Problem := ⟨fun p => p.severity.label ++ " " ++ p.message⟩

def summary : List Problem → String
  | [] => "An unknown error occurred"
  | [p] => p.message
  | p :: ps => toString (ps.length + 1) ++ " errors occurred. First: " ++ p.message

def details (ps : List Problem) : String := "\n".intercalate (ps.map toString)

end Problem

end Formula
