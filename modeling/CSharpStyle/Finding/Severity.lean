/-!
# Severity
-/

namespace CSharpStyle

inductive Severity
  | info
  | warning
  | error
  deriving DecidableEq, Repr, Inhabited

namespace Severity

def text : Severity → String
  | info => "info"
  | warning => "warning"
  | error => "error"

def all : List Severity := [info, warning, error]

/-- Severities rise from information to errors. -/
def rank : Severity → Nat
  | info => 0
  | warning => 1
  | error => 2

/-- At least as severe as `threshold`. -/
def reaches (s threshold : Severity) : Bool := threshold.rank ≤ s.rank

def ofText? (text : String) : Option Severity := all.find? (·.text == text)

end Severity

end CSharpStyle
