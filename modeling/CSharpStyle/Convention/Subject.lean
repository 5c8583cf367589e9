import CSharpStyle.Convention.Rule
import CSharpStyle.Finding.Basic
import CSharpStyle.Lexical.Token
import CSharpStyle.Outline.Basic

/-!
# What rules look at

A rule sees one file: its tokens, its lines and, when the tokens were well formed, its outline. Nothing else
can influence what it reports.
-/

namespace CSharpStyle

/-- Whether a name resolves differently inside a namespace, as far as that is known of a project. -/
abbrev Symbols := String → Option String → Option Bool

/-- Nothing is known. -/
def Symbols.unknown : Symbols := fun _ _ => none

structure Subject where
  file : Path
  /-- The trimmed lines of the source. -/
  lines : Array String
  significant : List Token
  outline : Option Outline
  symbols : Symbols

namespace Subject

/-- The declarations of the outline, if there is one. -/
def declarations (s : Subject) : List Declaration := s.outline.elim [] (·.declarations.toList)

def withRole (s : Subject) (role : Role) : List Declaration := s.declarations.filter (·.role = role)

/-- The trimmed text of a line, unless it is blank. -/
def context? (s : Subject) (line : Nat) : Option String :=
  if line = 0 then none else s.lines[line - 1]?.filter (· != "")

/-- A violation of `rule` at a place of the file, with the line as context. -/
def violation (s : Subject) (rule : Rule) (place : Position) (message : String) (fix : Option String) :
    Violation :=
  { rule := rule.name, severity := rule.defaultSeverity, file := s.file, line := place.line
    column := place.column, message, context := s.context? place.line, fix }

end Subject

end CSharpStyle
