import CSharpStyle.Convention.Subject

/-!
# One statement per line

A `;` ends a statement unless it stands in parentheses or brackets, as in the header of a `for` loop, or ends
an accessor. A statement may not begin on the line on which the one before it ends.
-/

namespace CSharpStyle.OneStatementPerLine

def isAccessor (t : Token) : Bool :=
  t.isIdentifier && ["get", "set", "init", "add", "remove"].contains t.text

/-- A `;` behind `previous` ends a statement, where `innermost` is the innermost open bracket. -/
def endsStatement (innermost : Option String) (previous : Option Token) : Bool :=
  innermost.all (· == "\x7b") && !previous.any isAccessor

/-- A statement begins with `next` on the line of the `;`. -/
def startsOnSameLine (semicolon : Token) : Option Token → Bool
  | some next => next.line == semicolon.line && !next.isPunctuation "\x7d"
  | none => false

/-- The first tokens of the statements that begin on the line of the one before. The brackets in `pending` are
open, the innermost first. -/
def crowded : List String → Option Token → List Token → List Token
  | _, _, [] => []
  | pending, previous, t :: rest =>
    if t.isPunctuation "(" || t.isPunctuation "[" || t.isPunctuation "\x7b" then
      crowded (t.text :: pending) (some t) rest
    else if t.isPunctuation ")" || t.isPunctuation "]" || t.isPunctuation "\x7d" then
      crowded pending.tail (some t) rest
    else if t.isPunctuation ";" && endsStatement pending.head? previous && startsOnSameLine t rest.head? then
      rest.head?.toList ++ crowded pending (some t) rest
    else crowded pending (some t) rest

def check (s : Subject) : List Violation :=
  (crowded [] none s.significant).map fun t =>
    s.violation .oneStatementPerLine t.start "statement starts on the same line as the previous statement"
      (some "move the statement to its own line")

end CSharpStyle.OneStatementPerLine
