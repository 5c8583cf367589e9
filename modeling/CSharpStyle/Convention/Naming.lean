import CSharpStyle.Convention.Casing
import CSharpStyle.Convention.Subject
import CSharpStyle.Finding.Failure
import CSharpStyle.Pattern.RegexReader

/-!
# Naming rules

A naming rule checks the names of one role against a pattern. Names that consist of underscores alone are
discards and are never reported.

What patterns there are and which names they match is up to a reader of patterns. It is asked when settings are
validated and again when the rules are prepared.
-/

namespace CSharpStyle

/-- Decides which texts are patterns, and what matches them. -/
structure PatternReader where
  /-- The names that match a pattern, if the text is one. -/
  read? : String → Option (String → Bool)
  reads_builtIn : ∀ rule : Rule, ∀ pattern ∈ rule.defaultPattern?, (read? pattern).isSome

/-- Patterns are regular expressions. -/
def PatternReader.regex : PatternReader where
  read? pattern := (Regex.parse? pattern).map Regex.search
  reads_builtIn rule := by cases rule <;> decide +kernel

structure NamingRule where
  rule : Rule
  role : Role
  /-- The pattern as written. -/
  pattern : String
  /-- A name matches the pattern. -/
  accepts : String → Bool
  /-- The pattern comes from the settings. -/
  isCustom : Bool
  deriving Inhabited

namespace NamingRule

/-- The naming rule with its built-in pattern, or with the given one. -/
def make (rule : Rule) (pattern : Option String) (patterns : PatternReader := .regex) : Except Failure NamingRule :=
  match rule.role?, rule.defaultPattern? with
  | some role, some builtIn =>
    let source := pattern.getD builtIn
    match patterns.read? source with
    | some accepts => .ok ⟨rule, role, source, accepts, pattern.isSome⟩
    | none => .error (.invalidNamePattern source rule)
  | _, _ => .error (.notANamingRule rule)

def isDiscard (name : String) : Bool := name.toList.all (· == '_')

/-- The name has to be reported. -/
def rejects (n : NamingRule) (name : String) : Bool := !isDiscard name && !n.accepts name

/-- Another name that the rule accepts, if the conventional spelling is one. -/
def suggestion? (n : NamingRule) (name : String) : Option String :=
  let candidate := String.ofList (Casing.conventional n.rule name.toList)
  if candidate != name && n.accepts candidate then some candidate else none

def message (n : NamingRule) (name : String) : String :=
  if n.isCustom then s!"{n.role.text} '{name}' does not match the configured pattern {n.pattern}"
  else s!"{n.role.text} '{name}' should be {Casing.expectation n.rule}"

def check (n : NamingRule) (s : Subject) : List Violation :=
  ((s.withRole n.role).filter fun d => n.rejects d.name).map fun d =>
    s.violation n.rule d.position (n.message d.name)
      ((n.suggestion? d.name).map fun name => s!"rename to '{name}'")

end NamingRule

end CSharpStyle
