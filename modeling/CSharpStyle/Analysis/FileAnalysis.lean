import CSharpStyle.Convention.RuleSet
import CSharpStyle.Grammar.CompilationUnit
import CSharpStyle.Source.Line

/-!
# Analysis of one file

The tokens of a file are read first, then its outline, then the rules are run. A malformed token stops the
outline from being read, but rules on tokens are still run. An interruption between the stages discards all
that was found in the file.
-/

namespace CSharpStyle

/-- A rule set with what is known of the project. -/
structure FileAnalyzer where
  rules : RuleSet
  symbols : Symbols

/-- What the stages ask before they go on: whether the run has been interrupted when the question with the
given number is asked. -/
abbrev Interruption := Nat → Bool

namespace Interruption

def never : Interruption := fun _ => false

def always : Interruption := fun _ => true

end Interruption

/-- The subject of the rules for a source text. -/
def Subject.ofStream (file : Path) (source : String) (stream : TokenStream) (outline : Option Outline)
    (symbols : Symbols) : Subject :=
  { file, lines := trimmedLines source, significant := stream.significant, outline, symbols }

namespace LexicalError

def diagnostic (file : Path) (e : LexicalError) : Diagnostic :=
  { kind := .lexical, file, line := some e.start.line, column := some e.start.column, message := e.fault.message }

end LexicalError

namespace StructureError

def diagnostic (file : Path) (e : StructureError) : Diagnostic :=
  { kind := .structural, file, line := some e.position.line, column := some e.position.column
    message := s!"{e.kind.text}: {e.message}" }

end StructureError

namespace FileAnalyzer

/-- The unit that a token stream consists of, if all tokens were well formed. -/
def unit? (stream : TokenStream) : Option CompilationUnit :=
  if stream.errors.isEmpty then some (.ofTokens stream.significant) else none

/-- What the stages find in a source text. -/
def report (a : FileAnalyzer) (file : Path) (source : String) : FileReport :=
  let stream := TokenStream.ofSource source
  let unit := unit? stream
  let subject := Subject.ofStream file source stream (unit.map (·.outline)) a.symbols
  { violations := a.rules.run subject
    diagnostics := stream.errors.map (·.diagnostic file) ++
      (unit.elim [] (·.errors)).map (·.diagnostic file) }

/-- The report of a file, or nothing when one of the three questions between the stages is answered by an
interruption. -/
def analyze (a : FileAnalyzer) (interrupted : Interruption) (file : Path) (source : String) : Option FileReport :=
  if interrupted 0 || interrupted 1 || interrupted 2 then none else some (a.report file source)

end FileAnalyzer

end CSharpStyle
