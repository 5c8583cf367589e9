import CSharpStyle.Grammar.Expression

/-!
# Signatures

Attributes, modifiers, type parameters, parameters and constraints, and the methods that consist of them and
a body.
-/

namespace CSharpStyle

namespace Cursor

/-- Reads attribute tokens up to the bracket that closes the section; `found` says whether `ThreadStatic` was
among them. -/
def attributeTokens : Nat → Bool → List Token → List Token → Bool × Cursor
  | _, found, before, [] => (found, ⟨before, []⟩)
  | depth, found, before, t :: ahead =>
    if t.isPunctuation "[" || t.isPunctuation "(" then attributeTokens (depth + 1) found (t :: before) ahead
    else if t.isPunctuation "]" || t.isPunctuation ")" then
      if depth ≤ 1 then (found, ⟨t :: before, ahead⟩)
      else attributeTokens (depth - 1) found (t :: before) ahead
    else
      let isThreadStatic := depth == 1 && (t.text == "ThreadStatic" || t.text == "ThreadStaticAttribute")
      attributeTokens depth (found || isThreadStatic) (t :: before) ahead

/-- Reads an attribute section `[…]` and tells whether it names `ThreadStatic`. -/
def attributeSection (c : Cursor) : Bool × Cursor := attributeTokens 0 false c.before c.ahead

theorem size_attributeTokens_le (depth : Nat) (found : Bool) (before ahead : List Token) :
    (attributeTokens depth found before ahead).2.size ≤ ahead.length := by
  fun_induction attributeTokens depth found before ahead <;> simp_all [size] <;> omega

theorem size_attributeSection_lt {c : Cursor} (h : c.ahead ≠ []) : c.attributeSection.2.size < c.size := by
  obtain ⟨before, _ | ⟨t, ahead⟩⟩ := c
  · exact absurd rfl h
  · have hnested (depth : Nat) (found : Bool) := size_attributeTokens_le depth found (t :: before) ahead
    simp only [attributeSection, attributeTokens, size, List.length_cons] at hnested ⊢
    split
    · exact Nat.lt_succ_of_le (hnested _ _)
    · split
      · simp
      · exact Nat.lt_succ_of_le (hnested _ _)

def attributeStride : Stride where
  step? c := if c.sees "[" then some c.attributeSection.2 else none
  consumes {c d} h := by
    split at h
    · rename_i hsees
      cases h
      exact size_attributeSection_lt (ahead_ne_nil_of_sees hsees)
    · simp at h

def skipAttributes (c : Cursor) : Cursor := c.skipMany attributeStride

end Cursor

/-- What stands in front of a declaration. -/
structure Header where
  modifiers : Modifiers := {}
  hasAttributes : Bool := false
  deriving DecidableEq, Repr, Inhabited

namespace Header

/-- Reads one attribute section or modifier. The words `new`, `ref` and `file` are modifiers only in front of
certain tokens. -/
def step? (header : Header) (c : Cursor) : Option (Header × Cursor) :=
  match c.peek? with
  | none => none
  | some t =>
    let second (p : Token → Bool) := c.second?.any p
    if t.isPunctuation "[" then
      let (threadStatic, c) := c.attributeSection
      let modifiers := header.modifiers
      some ({ modifiers := { modifiers with threadStatic := modifiers.threadStatic || threadStatic }
              hasAttributes := true }, c)
    else if t.isKeyword "new" then
      if c.seesSecond "(" || c.seesSecond "[" then none else some (header, c.next)
    else
      match if t.kind = .keyword then header.modifiers.add? t.text else none with
      | some modifiers => some ({ header with modifiers }, c.next)
      | none =>
        if t.isKeyword "ref" &&
            second (fun t => t.isKeyword "struct" || t.isKeyword "partial" || t.isKeyword "readonly") then
          some (header, c.next)
        else if t.isIdentifier && t.text == "file" && second (·.kind == .keyword) then some (header, c.next)
        else none

theorem step?_consumes {header after : Header} {c d : Cursor} (h : step? header c = some (after, d)) :
    d.size < c.size := by
  unfold step? at h
  split at h
  · simp at h
  · rename_i t ht
    have hnext := Cursor.size_next_lt (Cursor.ahead_ne_nil_of_peek? ht)
    have hsection := Cursor.size_attributeSection_lt (Cursor.ahead_ne_nil_of_peek? ht)
    dsimp only at h
    repeat' split at h
    all_goals first | (cases h; assumption) | simp at h

/-- Reads attributes and modifiers as long as there are any. -/
def readOn (header : Header) (c : Cursor) : Header × Cursor :=
  match _h : step? header c with
  | some (header, c) => readOn header c
  | none => (header, c)
termination_by c.size
decreasing_by exact step?_consumes ‹_›

theorem readOn_eq (header : Header) (c : Cursor) :
    readOn header c =
      match step? header c with
      | some (header, c) => readOn header c
      | none => (header, c) := by
  rw [readOn]
  split <;> simp_all

/-- Reads all attributes and modifiers in front of a declaration. -/
def read (c : Cursor) : Header × Cursor := readOn {} c

end Header

namespace Reading

/-- Reads the attributes and modifiers that come next. -/
def header (s : Reading) : Header × Reading :=
  let (header, cursor) := Header.read s.cursor
  (header, { s with cursor })

/-- Records the declaration of the name `token`. -/
def declareName (s : Reading) (scope : ScopeId) (token : Token) (role : Role) (kind : DeclarationKind)
    (accessibility : Accessibility) : Reading :=
  s.declare scope { name := token.identifierName, role, kind, position := token.start, accessibility }

/-- One type parameter with its attributes and variance. -/
def typeParameterRound (scope : ScopeId) (s : Reading) : Round Reading Reading :=
  let s := s.move (·.skipAttributes.skipEither "in" "out")
  match s.name? with
  | none => .done ((s.report (.expectedName "type parameter name")).move (.skipPast ">"))
  | some (name, s) =>
    let s := s.declareName scope name .typeParameter .typeParameter .unspecified
    match s.eat? "," with
    | some s => .again s
    | none => .done (s.require ">" (.expected "'>' after type parameters"))

/-- Reads type parameters `<…>` if there are any. -/
def typeParameters (scope : ScopeId) (s : Reading) : Reading :=
  match s.eat? "<" with
  | none => s
  | some s => rounds size (typeParameterRound scope) stall s

/-- Skips the constraints of type parameters. -/
def skipConstraints (s : Reading) : Reading :=
  if s.seesKeyword "where" then
    s.move (.skipUntil fun t => t.kind == .punctuation && ["\x7b", ";", "=>", "\x7d"].contains t.text)
  else s

/-- A word that may stand in front of a parameter's type. -/
def isParameterModifier (t : Token) : Bool :=
  (t.kind == .keyword && ["this", "ref", "out", "in", "params", "readonly"].contains t.text) ||
    (t.isIdentifier && t.text == "scoped")

variable (statement : StatementReader)

/-- How the parameters of a list are recorded. -/
structure ParameterList where
  role : Role
  kind : DeclarationKind
  accessibility : Accessibility
  /-- The closing bracket. -/
  closer : String

/-- Skips the rest of a malformed parameter list. -/
def abandonParameters (scope : ScopeId) (closer : String) (s : Reading) : Reading :=
  (skipExpression statement scope [] s).skip closer

/-- One parameter with its attributes, modifiers and default value. -/
def parameterRound (scope : ScopeId) (list : ParameterList) (s : Reading) : Round Reading Reading :=
  let s := s.move (·.skipAttributes.skipWhile isParameterModifier)
  match s.type? with
  | none => .done (abandonParameters statement scope list.closer (s.report (.expected "parameter type")))
  | some (_, s) =>
    match s.name? with
    | none => .done (abandonParameters statement scope list.closer (s.report (.nameless "parameter")))
    | some (name, s) =>
      let s := s.declareName scope name list.role list.kind list.accessibility
      let s := skipValue statement scope s
      match s.eat? "," with
      | some s => .again s
      | none =>
        match s.eat? list.closer with
        | some s => .done s
        | none =>
          let s := s.report (.expected s!"',' or '{list.closer}'")
          .done (abandonParameters statement scope list.closer s)

/-- Reads a parameter list from its opening bracket. -/
def parameterList (scope : ScopeId) (role : Role) (kind : DeclarationKind) (s : Reading) : Reading :=
  match s.peek? with
  | none => s
  | some opener =>
    let accessibility := if role = .publicMember then .isPublic else .unspecified
    let list : ParameterList := ⟨role, kind, accessibility, closing opener.text⟩
    match s.next.eat? list.closer with
    | some s => s
    | none => rounds size (parameterRound statement scope list) stall s.next

/-- Reads a block, an expression body or the semicolon in place of one. -/
def methodBody (method : ScopeId) (s : Reading) : Attempt :=
  if s.sees "\x7b" then .complete (block statement method s)
  else
    match s.eat? "=>" with
    | some s => .complete (skipToStatementEnd statement method s)
    | none =>
      match s.eat? ";" with
      | some s => .complete s
      | none => .malformed (s.report (.expected "method body"))

/-- Skips the call of another constructor in front of a constructor's body. -/
def skipConstructorCall (s : Reading) : Reading :=
  match s.eat? ":" with
  | none => s
  | some s =>
    match (s.eatKeyword? "base").or (s.eatKeyword? "this") with
    | some s => s.skipGroupAt "("
    | none => s

/-- Reads what follows the name of a method, constructor or operator. -/
def methodRest (scope : ScopeId) (name : String) (s : Reading) : Attempt :=
  let (method, s) := s.openScope .method (some name) scope
  let s := s.typeParameters method
  if s.sees "(" then
    let s := parameterList statement method .parameter .parameter s
    methodBody statement method s.skipConstructorCall.skipConstraints
  else .malformed (s.report (.expected "parameter list"))

end Reading

end CSharpStyle
