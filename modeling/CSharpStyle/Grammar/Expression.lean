import CSharpStyle.Grammar.Reading

/-!
# Blocks and expressions

Expressions are skipped by matching brackets. A block behind `=>` is the body of a lambda and is read as a
block, so that its locals are recorded. How a single statement is read is a parameter here.
-/

namespace CSharpStyle

/-- Reads one statement in a scope. -/
abbrev StatementReader := ScopeId → Reading → Reading

variable (statement : StatementReader)

namespace Reading

/-- One statement of a block, or its end. -/
def blockRound (opening : Position) (scope : ScopeId) (s : Reading) : Round Reading Reading :=
  match s.peek? with
  | none => .done (s.reportAt opening (.neverClosed "block"))
  | some t =>
    if t.isPunctuation "\x7d" then .done s.next else .again (s.progress (statement scope))

/-- Reads a block from its opening brace. -/
def block (parent : ScopeId) (s : Reading) : Reading :=
  let opening := s.position
  let (scope, s) := s.next.openScope .block none parent
  rounds size (blockRound statement opening scope) stall s

/-- The last consumed token is the arrow of a lambda or of an expression body. -/
def isBehindArrow (s : Reading) : Bool := s.cursor.before.head?.any (·.isPunctuation "=>")

/-- One token of an expression inside the brackets `pending`, which lists their closers, or the end of the
expression. -/
def expressionRound (scope : ScopeId) (stops : List String) :
    List String × Reading → Round (List String × Reading) Reading
  | (pending, s) =>
    match s.peek? with
    | none => .done s
    | some t =>
      if t.isPunctuation "\x7b" && s.isBehindArrow then .again (pending, block statement scope s)
      else if t.isOpener then .again (closing t.text :: pending, s.next)
      else if t.isCloser then
        match pending with
        | [] => .done s
        | _ :: outer => .again (outer, s.next)
      else if t.isPunctuation ";" && !pending.contains "\x7d" then .done s
      else if pending.isEmpty && t.kind == .punctuation && stops.contains t.text then .done s
      else .again (pending, s.next)

/-- Skips an expression: up to a mark in `stops` outside all brackets, a closer that was not opened, or a `;`
outside braces. The token that ends it is not consumed. -/
def skipExpression (scope : ScopeId) (stops : List String) (s : Reading) : Reading :=
  rounds (·.2.size) (expressionRound statement scope stops) (·.2.stall) ([], s)

/-- Skips the rest of a statement with its semicolon. -/
def skipToStatementEnd (scope : ScopeId) (s : Reading) : Reading :=
  (skipExpression statement scope [] s).skip ";"

/-- Skips the value behind a sign `=`, if there is one, up to the next declarator. -/
def skipValue (scope : ScopeId) (s : Reading) : Reading :=
  match s.eat? "=" with
  | some s => skipExpression statement scope [","] s
  | none => s

/-- Skips a parenthesised expression, as behind `if`. -/
def skipParenthesized (scope : ScopeId) (s : Reading) : Reading :=
  match s.eat? "(" with
  | some s => (skipExpression statement scope [] s).require ")" (.expected "')'")
  | none => s

/-- Reads the statement that `if`, `while` and the like control. -/
def embedded (scope : ScopeId) (s : Reading) : Reading :=
  match s.peek? with
  | none => s
  | some t => if t.isPunctuation "\x7d" then s else s.progress (statement scope)

end Reading

end CSharpStyle
