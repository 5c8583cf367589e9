import CSharpStyle.Declaration.Basic
import CSharpStyle.Grammar.Cursor

/-!
# Initializers

The type of a local is apparent from its initializer when that is a literal, a complete `new` expression or
an explicit cast, possibly in parentheses.
-/

namespace CSharpStyle.Initializer

/-- Splits a list that begins with a bracket behind the bracket that closes it; `depth` brackets are open
before it. -/
def splitGroup? : Nat → List Token → Option (List Token × List Token)
  | _, [] => none
  | depth, t :: rest =>
    let consed := fun (split : List Token × List Token) => (t :: split.1, split.2)
    if t.isOpener then (splitGroup? (depth + 1) rest).map consed
    else if t.isCloser then
      match depth with
      | 0 => none
      | 1 => some ([t], rest)
      | outer + 1 => (splitGroup? outer rest).map consed
    else (splitGroup? depth rest).map consed

/-- Splitting loses no token. -/
theorem append_of_splitGroup? {depth : Nat} {tokens group behind : List Token}
    (h : splitGroup? depth tokens = some (group, behind)) : group ++ behind = tokens := by
  fun_induction splitGroup? depth tokens generalizing group behind with
  | case1 | case3 => simp at h
  | case4 => cases h; rfl
  | case2 | case5 | case6 =>
    rename_i ih
    obtain ⟨split, hsplit, heq⟩ := Option.map_eq_some_iff.mp h
    cases heq
    rw [List.cons_append, ih hsplit]

/-- A group has a token, and one behind the bracket that opens it. -/
theorem length_of_splitGroup? {depth : Nat} {tokens group behind : List Token}
    (h : splitGroup? depth tokens = some (group, behind)) : (if depth = 0 then 2 else 1) ≤ group.length := by
  fun_induction splitGroup? depth tokens generalizing group behind with
  | case1 | case3 => simp at h
  | case4 => cases h; simp
  | case2 | case5 | case6 =>
    rename_i ih
    obtain ⟨split, hsplit, heq⟩ := Option.map_eq_some_iff.mp h
    cases heq
    have := ih hsplit
    simp only [List.length_cons]
    split at this <;> split <;> omega

theorem length_behind_lt {tokens group behind : List Token}
    (h : splitGroup? 0 tokens = some (group, behind)) : behind.length < tokens.length := by
  have hgroup : 2 ≤ group.length := length_of_splitGroup? h
  rw [← append_of_splitGroup? h, List.length_append]
  omega

theorem length_inner_lt {tokens group behind : List Token}
    (h : splitGroup? 0 tokens = some (group, behind)) : group.tail.dropLast.length < tokens.length := by
  have hgroup : 2 ≤ group.length := length_of_splitGroup? h
  rw [← append_of_splitGroup? h, List.length_append, List.length_dropLast, List.length_tail]
  omega

/-- What may belong to a type inside a cast or behind `new`. -/
def isTypeToken (t : Token) : Bool :=
  match t.kind with
  | .identifier => true
  | .keyword => Keyword.isBuiltInType t.text || Keyword.isContextual t.text
  | .punctuation => [".", "::", "<", ">", ",", "?", "[", "]"].contains t.text
  | _ => false

/-- Whether the tokens are nothing but bracketed groups. -/
def onlyGroups : List Token → Bool
  | [] => true
  | t :: rest =>
    if t.isOpener then
      match _h : splitGroup? 0 (t :: rest) with
      | some (_, behind) => onlyGroups behind
      | none => false
    else false
termination_by tokens => tokens.length
decreasing_by exact length_behind_lt ‹_›

theorem onlyGroups_cons (t : Token) (rest : List Token) :
    onlyGroups (t :: rest) =
      if t.isOpener then
        match splitGroup? 0 (t :: rest) with
        | some (_, behind) => onlyGroups behind
        | none => false
      else false := by
  rw [onlyGroups]
  split
  · split <;> simp_all
  · rfl

/-- Behind `new`: a type and then arguments, array ranks or initializers, and nothing else. -/
def isCompleteCreation (afterNew : List Token) : Bool :=
  onlyGroups (afterNew.dropWhile fun t => isTypeToken t && !t.isPunctuation "[")

/-- Whether `(inner)` in front of `operand` is a cast. In front of a sign only a built-in type makes it
one. -/
def isCast (inner : List Token) (operand : List Token) : Bool :=
  match inner, operand with
  | first :: more, t :: _ =>
    (first :: more).all isTypeToken && first.kind != .punctuation &&
      match t.kind with
      | .identifier | .literal | .keyword => true
      | .punctuation =>
        t.text == "(" ||
          ((t.text == "-" || t.text == "!" || t.text == "~") && more.isEmpty && first.isBuiltInType)
      | _ => false
  | _, _ => false

/-- Whether the type of the expression can be read off it. -/
def isApparent : List Token → Bool
  | [] => false
  | [t] => t.isLiteral
  | first :: second :: rest =>
    if rest.isEmpty && (first.isPunctuation "-" || first.isPunctuation "+") then second.isLiteral
    else if first.isKeyword "new" then isCompleteCreation (second :: rest)
    else if first.isPunctuation "(" then
      match _h : splitGroup? 0 (first :: second :: rest) with
      | some (group, operand) =>
        let inner := group.tail.dropLast
        if operand.isEmpty then isApparent inner else isCast inner operand
      | none => false
    else false
termination_by tokens => tokens.length
decreasing_by exact length_inner_lt ‹_›

theorem isApparent_cons_cons (first second : Token) (rest : List Token) :
    isApparent (first :: second :: rest) =
      if rest.isEmpty && (first.isPunctuation "-" || first.isPunctuation "+") then second.isLiteral
      else if first.isKeyword "new" then isCompleteCreation (second :: rest)
      else if first.isPunctuation "(" then
        match splitGroup? 0 (first :: second :: rest) with
        | some (group, operand) =>
          if operand.isEmpty then isApparent group.tail.dropLast else isCast group.tail.dropLast operand
        | none => false
      else false := by
  rw [isApparent]
  split
  · rfl
  · split
    · rfl
    · split
      · split <;> simp_all
      · rfl

def classify (tokens : List Token) : Apparentness :=
  if isApparent tokens then .apparent else .notApparent

end CSharpStyle.Initializer
