import CSharpStyle.Convention.DeclarationRules
import CSharpStyle.Convention.Naming
import CSharpStyle.Convention.ShortCircuit
import CSharpStyle.Convention.StatementLayout

/-!
# Rule sets

A rule set lists checks with their severities. Every check looks at the file alone, and the violations of all
checks are put one behind the other.
-/

namespace CSharpStyle

/-- A rule that is ready to be run. -/
inductive Check
  | naming (n : NamingRule)
  | varApparentType
  | explicitForeachType
  | usingOutsideNamespace
  | shortCircuitOperator
  | oneStatementPerLine
  | oneDeclarationPerLine
  deriving Inhabited

namespace Check

/-- Prepares a rule. Only naming rules take a pattern. -/
def ofRule (rule : Rule) (pattern : Option String) (patterns : PatternReader := .regex) : Except Failure Check :=
  match rule with
  | .varApparentType => .ok varApparentType
  | .explicitForeachType => .ok explicitForeachType
  | .usingOutsideNamespace => .ok usingOutsideNamespace
  | .shortCircuitOperator => .ok shortCircuitOperator
  | .oneStatementPerLine => .ok oneStatementPerLine
  | .oneDeclarationPerLine => .ok oneDeclarationPerLine
  | rule => (NamingRule.make rule pattern patterns).map naming

def rule : Check → Rule
  | naming n => n.rule
  | varApparentType => .varApparentType
  | explicitForeachType => .explicitForeachType
  | usingOutsideNamespace => .usingOutsideNamespace
  | shortCircuitOperator => .shortCircuitOperator
  | oneStatementPerLine => .oneStatementPerLine
  | oneDeclarationPerLine => .oneDeclarationPerLine

/-- The violations in a file. -/
def run (s : Subject) : Check → List Violation
  | naming n => n.check s
  | varApparentType => VarApparentType.check s
  | explicitForeachType => ExplicitForeachType.check s
  | usingOutsideNamespace => UsingOutsideNamespace.check s
  | shortCircuitOperator => ShortCircuit.check s
  | oneStatementPerLine => OneStatementPerLine.check s
  | oneDeclarationPerLine => OneDeclarationPerLine.check s

end Check

/-- A rule chosen by settings. -/
structure Selection where
  rule : Rule
  severity : Severity
  pattern : Option String := none
  deriving DecidableEq, Repr, Inhabited

/-- A check and the severity of its violations. -/
structure EnabledCheck where
  check : Check
  severity : Severity
  deriving Inhabited

abbrev RuleSet := List EnabledCheck

namespace RuleSet

/-- Prepares the selected rules, in order. -/
def ofSelections (selections : List Selection) (patterns : PatternReader := .regex) : Except Failure RuleSet :=
  selections.mapM fun s => (Check.ofRule s.rule s.pattern patterns).map fun check => ⟨check, s.severity⟩

/-- The given checks at the default severities of their rules. -/
def ofChecks (checks : List Check) : RuleSet := checks.map fun c => ⟨c, c.rule.defaultSeverity⟩

def rules (set : RuleSet) : List Rule := set.map (·.check.rule)

/-- The violations of all checks that the file allows, check by check. -/
def run (set : RuleSet) (s : Subject) : List Violation :=
  (set.filter fun e => s.outline.isSome || !e.check.rule.needsOutline).flatMap fun e =>
    (e.check.run s).map fun v => { v with severity := e.severity }

end RuleSet

end CSharpStyle
