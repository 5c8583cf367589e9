import CSharpStyle.Grammar.LocalDeclaration

/-!
# Statements

A statement contains further statements only behind tokens of its own. The readers of this module therefore
take the reader of the statements inside as an argument, and `Statement.read` ties the knot with the tokens
ahead: a statement inside another one has fewer of them.
-/

namespace CSharpStyle

namespace Reading

variable (statement : StatementReader)

/-- One section label or statement of a switch body. -/
def switchRound (opening : Position) (body : ScopeId) (s : Reading) : Round Reading Reading :=
  match s.peek? with
  | none => .done (s.reportAt opening (.neverClosed "switch body"))
  | some t =>
    if t.isPunctuation "\x7d" then .done s.next
    else if t.isKeyword "case" then .again ((skipExpression statement body [":"] s.next).skip ":")
    else if t.isKeyword "default" && s.cursor.seesSecond ":" then .again s.next.next
    else .again (s.progress (statement body))

def switchStatement (scope : ScopeId) (s : Reading) : Reading :=
  let s := skipParenthesized statement scope s.next
  if s.sees "\x7b" then
    let opening := s.position
    let (body, s) := s.next.openScope .block none scope
    rounds size (switchRound statement opening body) stall s
  else s.report (.expected "switch body")

/-- Reads what a `for` loop begins with: a declaration, an expression or nothing, and a semicolon. -/
def forInitializer (scope : ScopeId) (s : Reading) : Reading :=
  match s.eat? ";" with
  | some s => s
  | none => localDeclarationOr statement .forInitializer scope (skipToStatementEnd statement scope) s

def forStatement (scope : ScopeId) (s : Reading) : Reading :=
  match s.next.eat? "(" with
  | none => s.next.report (.expected "'(' after for")
  | some s =>
    let (inner, s) := s.openScope .block none scope
    let s := skipToStatementEnd statement inner (forInitializer statement inner s)
    let s := skipExpression statement inner [] s
    embedded statement inner (s.require ")" (.expected "')' after for header"))

/-- The iteration variables of a `foreach` loop, or nothing when they are malformed, and the place where
reading ended. -/
def iterationVariables (c : Cursor) : Declarator.Names :=
  let c := (c.eatKeyword? "ref").elim c (·.skipKeyword "readonly")
  if c.seesKeyword "var" && c.seesSecond "(" then Declarator.pattern true c.next
  else if c.sees "(" then Declarator.pattern false c
  else
    match c.type? with
    | none => (none, c)
    | some (isVar, c) =>
      match c.name? with
      | some (token, behind) => (some [⟨token, isVar⟩], behind)
      | none => (none, c)

/-- Records the iteration variables of a `foreach` loop. -/
def iteration (scope : ScopeId) (s : Reading) : Reading :=
  let (names, cursor) := iterationVariables s.cursor
  let s := { s with cursor }
  match names, s.seesKeyword "in" with
  | some names, true =>
    names.foldl (fun s d => s.declareLocal scope d .localVariable true .notApplicable none) s
  | _, _ => s.report .malformedIteration

def foreachStatement (scope : ScopeId) (s : Reading) : Reading :=
  match s.next.eat? "(" with
  | none => s.next.report (.expected "'(' after foreach")
  | some s =>
    let (inner, s) := s.openScope .block none scope
    let s := skipExpression statement inner [] (s.iteration inner)
    embedded statement inner (s.require ")" (.expected "')' after foreach header"))

def usingStatement (scope : ScopeId) (s : Reading) : Reading :=
  match s.next.eat? "(" with
  | some s =>
    let (resource, s) := s.openScope .block none scope
    let s := localDeclarationOr statement .usingResource resource (skipExpression statement resource []) s
    embedded statement resource (s.require ")" (.expected "')' after using resource"))
  | none => localDeclarationOr statement .statement scope (skipToStatementEnd statement scope) s.next

def constantStatement (scope : ScopeId) (s : Reading) : Reading :=
  localDeclarationOr statement .constant scope
    (fun s => skipToStatementEnd statement scope (s.report (.malformed "local constant"))) s.next

def declarationOrExpression (scope : ScopeId) (s : Reading) : Reading :=
  match s.cursor.localFunctionName? with
  | some (name, cursor) => localFunction statement scope name { s with cursor }
  | none => localDeclarationOr statement .statement scope (skipToStatementEnd statement scope) s

/-- Reads the statement that begins with the keyword `word`. -/
def keywordStatement (word : String) (scope : ScopeId) (s : Reading) : Reading :=
  match word with
  | "if" | "while" | "lock" | "fixed" =>
    embedded statement scope (skipParenthesized statement scope s.next)
  | "else" | "try" | "finally" => embedded statement scope s.next
  | "checked" | "unchecked" | "unsafe" =>
    if s.cursor.seesSecond "\x7b" then block statement scope s.next
    else declarationOrExpression statement scope s
  | "do" =>
    let s := embedded statement scope s.next
    match s.eatKeyword? "while" with
    | some s => skipToStatementEnd statement scope s
    | none => s
  | "catch" =>
    let s := skipParenthesized statement scope s.next
    let s := (s.eatKeyword? "when").elim s (skipParenthesized statement scope)
    embedded statement scope s
  | "switch" => switchStatement statement scope s
  | "for" => forStatement statement scope s
  | "foreach" => foreachStatement statement scope s
  | "using" => usingStatement statement scope s
  | "const" => constantStatement statement scope s
  | "await" =>
    if s.next.seesKeyword "foreach" then foreachStatement statement scope s.next
    else if s.next.seesKeyword "using" then usingStatement statement scope s.next
    else skipToStatementEnd statement scope s
  | "return" | "throw" | "break" | "continue" | "goto" | "yield" => skipToStatementEnd statement scope s
  | _ => declarationOrExpression statement scope s

/-- Reads the statement that begins at the next token. -/
def statementAt (scope : ScopeId) (s : Reading) : Reading :=
  match s.peek? with
  | none => s
  | some t =>
    match t.kind with
    | .keyword => keywordStatement statement t.text scope s
    | .punctuation =>
      if t.text == "\x7b" then block statement scope s
      else if t.text == ";" then s.next
      else declarationOrExpression statement scope s
    | .identifier =>
      if s.cursor.seesSecond ":" then s.next.next else declarationOrExpression statement scope s
    | _ => declarationOrExpression statement scope s

end Reading

/-- Reads a statement. -/
def Statement.read (scope : ScopeId) (s : Reading) : Reading :=
  Reading.statementAt (fun inner t => if t.size < s.size then read inner t else t.stall) scope s
termination_by s.size

end CSharpStyle
