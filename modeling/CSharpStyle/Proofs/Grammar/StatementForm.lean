import CSharpStyle.Grammar.Statement

/-!
# The forms of statement that a keyword begins

Twenty-four keywords begin statements of twelve forms, and every other keyword a declaration or an expression. The
form is a matter of the keyword alone, and the reader of a form does not look at the keyword again. What holds of each
form therefore holds of the statement behind any keyword.

* `StatementForm.ofKeyword`: the form that a keyword begins.
* `Reading.keywordStatement_eq_read`: the statement behind a keyword is read as its form.
-/

namespace CSharpStyle

/-- The form of a statement that begins with a keyword. -/
inductive StatementForm where
  /-- A parenthesized head and a statement, such as an `if`. -/
  | headed
  /-- A statement alone, such as an `else`. -/
  | bare
  /-- A block in which `checked`, `unchecked` or `unsafe` holds, or an expression. -/
  | context
  | doLoop
  | handler
  | switch
  | forLoop
  | foreachLoop
  | resource
  | constant
  /-- An asynchronous loop, an asynchronous resource or an expression. -/
  | await
  /-- A jump, which ends at the semicolon. -/
  | jump
  | declarationOrExpression

namespace StatementForm

/-- The form of the statement that a keyword begins. -/
def ofKeyword : String → StatementForm
  | "return" | "throw" | "break" | "continue" | "goto" | "yield" => jump
  | "if" | "while" | "lock" | "fixed" => headed
  | "else" | "try" | "finally" => bare
  | "checked" | "unchecked" | "unsafe" => context
  | "do" => doLoop
  | "catch" => handler
  | "switch" => switch
  | "for" => forLoop
  | "foreach" => foreachLoop
  | "using" => resource
  | "const" => constant
  | "await" => await
  | _ => declarationOrExpression

open Reading

/-- Reads a statement of a form from its keyword. -/
def read (form : StatementForm) (statement : StatementReader) (scope : ScopeId) (s : Reading) : Reading :=
  match form with
  | headed => embedded statement scope (skipParenthesized statement scope s.next)
  | bare => embedded statement scope s.next
  | context =>
    if s.cursor.seesSecond "\x7b" then block statement scope s.next
    else Reading.declarationOrExpression statement scope s
  | doLoop =>
    let s := embedded statement scope s.next
    (s.eatKeyword? "while").elim s (skipToStatementEnd statement scope)
  | handler =>
    let s := skipParenthesized statement scope s.next
    embedded statement scope ((s.eatKeyword? "when").elim s (skipParenthesized statement scope))
  | switch => switchStatement statement scope s
  | forLoop => forStatement statement scope s
  | foreachLoop => foreachStatement statement scope s
  | resource => usingStatement statement scope s
  | constant => constantStatement statement scope s
  | await =>
    if s.next.seesKeyword "foreach" then foreachStatement statement scope s.next
    else if s.next.seesKeyword "using" then usingStatement statement scope s.next
    else skipToStatementEnd statement scope s
  | jump => skipToStatementEnd statement scope s
  | declarationOrExpression => Reading.declarationOrExpression statement scope s

end StatementForm

/-- The statement behind a keyword is read as the form that the keyword begins. -/
theorem Reading.keywordStatement_eq_read (statement : StatementReader) (word : String) (scope : ScopeId)
    (s : Reading) :
    keywordStatement statement word scope s = (StatementForm.ofKeyword word).read statement scope s := by
  unfold keywordStatement
  split
  case h_11 =>
    -- The `while` behind the body of a `do` loop.
    simp only [StatementForm.ofKeyword, StatementForm.read]
    split <;> simp_all
  case h_25 =>
    -- No keyword that begins a form of its own.
    unfold StatementForm.ofKeyword
    split <;> first | contradiction | rfl
  all_goals rfl

end CSharpStyle
