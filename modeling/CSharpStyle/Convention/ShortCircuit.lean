import CSharpStyle.Convention.Subject
import CSharpStyle.Lexical.Token

/-!
# Short-circuit operators

`&` and `|` evaluate both operands. Between two operands that can only be boolean `&&` and `||` give the same
result with less work. Types are not known here, so that an operand counts as boolean only if its form says
so.
-/

namespace CSharpStyle.ShortCircuit

/-- A token that ends an operand outside brackets. -/
def isBoundary (t : Token) : Bool :=
  match t.kind with
  | .punctuation =>
    [",", ";", "\x7b", "\x7d", "=", "=>", "?", ":", "??", "&&", "||", "&", "|", "^", "+=", "-=", "*=", "/=", "%=",
      "&=", "|=", "^=", "??=", "<<="].contains t.text
  | .keyword => ["return", "when", "if", "while"].contains t.text
  | _ => false

/-- An operator behind this token has a left operand. -/
def endsOperand (t : Token) : Bool :=
  match t.kind with
  | .identifier | .literal => true
  | .punctuation => t.text == ")" || t.text == "]"
  | .keyword => t.text == "this" || t.text == "base" || Keyword.isBuiltInType t.text
  | _ => false

def opens (t : Token) : Bool := t.isPunctuation "(" || t.isPunctuation "["

def closes (t : Token) : Bool := t.isPunctuation ")" || t.isPunctuation "]"

/-- The operand at the head of a list in which `inward` opens and `outward` closes brackets. -/
def operand (inward outward : Token → Bool) : Nat → List Token → List Token
  | _, [] => []
  | depth, t :: rest =>
    if inward t then t :: operand inward outward (depth + 1) rest
    else if outward t then if depth = 0 then [] else t :: operand inward outward (depth - 1) rest
    else if depth = 0 && isBoundary t then []
    else t :: operand inward outward depth rest

/-- The operand in front of an operator, from the tokens before it, the last one first. -/
def leftOperand (before : List Token) : List Token := (operand closes opens 0 before).reverse

/-- The operand behind an operator. -/
def rightOperand (after : List Token) : List Token := operand opens closes 0 after

/-- The tokens `>` written flush behind one that ends at `offset`: how many they are, whether `>=` follows as
flush, and what comes then. -/
def flushAngles : Nat → List Token → Nat × Bool × List Token
  | _, [] => (0, false, [])
  | offset, t :: rest =>
    if t.start.offset != offset then (0, false, t :: rest)
    else if t.isPunctuation ">" then
      let (count, assigns, behind) := flushAngles t.span.stop.offset rest
      (count + 1, assigns, behind)
    else if t.isPunctuation ">=" then (1, true, rest)
    else (0, false, t :: rest)

theorem flushAngles_length (offset : Nat) (tokens : List Token) :
    (flushAngles offset tokens).2.2.length ≤ tokens.length := by
  fun_induction flushAngles offset tokens with
  | case3 _ _ _ _ _ _ _ _ h ih =>
    rw [h] at ih
    exact Nat.le_succ_of_le ih
  | _ => simp

def isComparison (t : Token) : Bool :=
  t.isPunctuation "==" || t.isPunctuation "!=" || t.isPunctuation "<=" || t.isPunctuation ">=" ||
    t.isKeyword "is"

/-- Whether a comparison stands outside brackets. Angle brackets of type arguments are matched with each other
(`angles` counts the open ones); a lone `>` or `<` compares, and several `>` in a row shift. -/
def hasComparison (depth angles : Nat) (relational : Bool) : List Token → Bool
  | [] => relational || 0 < angles
  | t :: rest =>
    if opens t then hasComparison (depth + 1) angles relational rest
    else if closes t then hasComparison (depth - 1) angles relational rest
    else if 0 < depth then hasComparison depth angles relational rest
    else if t.isPunctuation ">" then
      match h : flushAngles t.span.stop.offset rest with
      | (more, assigns, behind) =>
        have : behind.length ≤ rest.length := by
          have := flushAngles_length t.span.stop.offset rest
          rw [h] at this
          exact this
        if assigns then hasComparison depth angles relational behind
        else if more + 1 ≤ angles then hasComparison depth (angles - (more + 1)) relational behind
        else hasComparison depth angles (relational || more == 0) behind
    else if isComparison t then true
    else if t.isPunctuation "<" then hasComparison depth (angles + 1) relational rest
    else hasComparison depth angles relational rest
termination_by tokens => tokens.length

/-- Whether `&&` or `||` stands outside brackets. -/
def hasLogicalOperator : Nat → List Token → Bool
  | _, [] => false
  | depth, t :: rest =>
    let depth := if opens t then depth + 1 else if closes t then depth - 1 else depth
    (depth == 0 && (t.isPunctuation "&&" || t.isPunctuation "||")) || hasLogicalOperator depth rest

/-- The first parenthesis is closed by the last token and not before. -/
def closesAtEnd : Nat → List Token → Bool
  | _, [] => false
  | depth, t :: rest =>
    if t.isPunctuation "(" then closesAtEnd (depth + 1) rest
    else if t.isPunctuation ")" then if depth ≤ 1 then rest.isEmpty else closesAtEnd (depth - 1) rest
    else closesAtEnd depth rest

/-- Whether an operand must be boolean; at most `n` pairs of parentheses are opened. -/
def isBooleanWithin : Nat → List Token → Bool
  | 0, _ => false
  | n + 1, tokens =>
    match tokens with
    | [] => false
    | [t] => t.isLiteral && (t.text == "true" || t.text == "false")
    | first :: rest =>
      if first.isPunctuation "!" then true
      else if first.isPunctuation "(" && closesAtEnd 0 tokens then
        isBooleanWithin n rest.dropLast || hasLogicalOperator 0 rest.dropLast
      else hasComparison 0 0 false tokens

def isBoolean (tokens : List Token) : Bool := isBooleanWithin (tokens.length + 1) tokens

/-- The operator that evaluates only what it needs. -/
def shortForm? (t : Token) : Option String :=
  if t.isPunctuation "&" then some "&&" else if t.isPunctuation "|" then some "||" else none

/-- The operators between boolean operands, with their short forms; `before` holds the tokens already passed,
the last one first. -/
def needless : List Token → List Token → List (Token × String)
  | _, [] => []
  | before, t :: rest =>
    let found :=
      match shortForm? t with
      | some short =>
        if before.head?.any endsOperand && isBoolean (leftOperand before) && isBoolean (rightOperand rest) then
          [(t, short)]
        else []
      | none => []
    found ++ needless (t :: before) rest

def check (s : Subject) : List Violation :=
  (needless [] s.significant).map fun (t, short) =>
    s.violation .shortCircuitOperator t.start
      s!"'{t.text}' evaluates both boolean operands; use '{short}' to short-circuit"
      (some s!"replace '{t.text}' with '{short}'")

end CSharpStyle.ShortCircuit
