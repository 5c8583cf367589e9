import CSharpStyle.Grammar.Initializer
import CSharpStyle.Grammar.Signature

/-!
# Local declarations

Local functions, locals and deconstructions. Whether a declaration begins at a cursor is decided on the cursor
alone; only then is anything recorded.
-/

namespace CSharpStyle

/-- A declared name, and whether its type is written `var`. -/
structure Declarator where
  token : Token
  usesVar : Bool
  deriving DecidableEq, Repr, Inhabited

namespace Declarator

/-- The names of a pattern, or nothing when it is malformed, and the place where reading ended. -/
abbrev Names := Option (List Declarator) × Cursor

/-- A discarded name `_` declares nothing. -/
def ofName (token : Token) (usesVar : Bool) : List Declarator :=
  if token.text == "_" then [] else [⟨token, usesVar⟩]

/-- A name of a pattern, which needs a type unless `usesVar`. -/
def element (usesVar : Bool) (c : Cursor) : Names :=
  if usesVar then
    match c.name? with
    | some (token, behind) => (some (ofName token true), behind)
    | none => (none, c)
  else
    match c.type? with
    | none => (none, c)
    | some (isVar, c) =>
      match c.name? with
      | some (token, behind) => (some (ofName token isVar), behind)
      | none => (none, c)

theorem size_element_lt {usesVar : Bool} {c d : Cursor} {names : List Declarator}
    (h : element usesVar c = (some names, d)) : d.size < c.size := by
  unfold element at h
  split at h
  · split at h
    · rename_i hname
      cases h
      exact Cursor.size_of_name? hname
    · simp at h
  · split at h
    · simp at h
    · rename_i htype
      split at h
      · rename_i hname
        cases h
        exact Nat.lt_trans (Cursor.size_of_name? hname) (Cursor.size_of_type? htype)
      · simp at h

mutual

/-- Reads a pattern from an element on. Around the innermost pattern there are `outer` others, and `names` were
read before. -/
def elements (usesVar : Bool) (outer : Nat) (names : List Declarator) (c : Cursor) : Names :=
  match _h : c.eat? "(" with
  | some d => elements usesVar (outer + 1) names d
  | none =>
    match _h : element usesVar c with
    | (none, d) => (none, d)
    | (some more, d) => closePatterns usesVar outer (names ++ more) d
termination_by 2 * c.size
decreasing_by
  · have := Cursor.size_of_eat? ‹_›
    omega
  · have := size_element_lt ‹_›
    omega

/-- Reads a pattern from behind an element on. -/
def closePatterns (usesVar : Bool) (outer : Nat) (names : List Declarator) (c : Cursor) : Names :=
  match _h : c.eat? "," with
  | some d => elements usesVar outer names d
  | none =>
    match _h : c.eat? ")" with
    | none => (none, c)
    | some d =>
      match outer with
      | 0 => (some names, d)
      | outer + 1 => closePatterns usesVar outer names d
termination_by 2 * c.size + 1
decreasing_by
  · have := Cursor.size_of_eat? ‹_›
    omega
  · have := Cursor.size_of_eat? ‹c.eat? ")" = _›
    omega

end

theorem elements_eq (usesVar : Bool) (outer : Nat) (names : List Declarator) (c : Cursor) :
    elements usesVar outer names c =
      match c.eat? "(" with
      | some d => elements usesVar (outer + 1) names d
      | none =>
        match element usesVar c with
        | (none, d) => (none, d)
        | (some more, d) => closePatterns usesVar outer (names ++ more) d := by
  rw [elements]
  split
  · simp_all
  · split <;> simp_all

theorem closePatterns_eq (usesVar : Bool) (outer : Nat) (names : List Declarator) (c : Cursor) :
    closePatterns usesVar outer names c =
      match c.eat? "," with
      | some d => elements usesVar outer names d
      | none =>
        match c.eat? ")" with
        | none => (none, c)
        | some d =>
          match outer with
          | 0 => (some names, d)
          | outer + 1 => closePatterns usesVar outer names d := by
  rw [closePatterns.eq_def]
  split
  · simp_all
  · split
    · simp_all
    · split <;> simp_all

/-- Reads a deconstruction pattern. Behind `var` bare names are declared; otherwise every name needs a
type. -/
def pattern (usesVar : Bool) (c : Cursor) : Names :=
  match c.eat? "(" with
  | some c => elements usesVar 0 [] c
  | none => (none, c)

end Declarator

/-- Where a local declaration stands. -/
inductive LocalContext
  | statement
  | constant
  /-- In the header of a `for` loop, where several declarators do not form a group. -/
  | forInitializer
  /-- In the parentheses of a `using` statement, which end it. -/
  | usingResource
  deriving DecidableEq, Repr, Inhabited

/-- What a local declaration begins with. -/
inductive LocalBeginning
  /-- Names that are bound to the parts of one value. -/
  | pattern (names : List Declarator)
  /-- A type in front of declarators. -/
  | type (isVar : Bool)
  deriving DecidableEq, Repr, Inhabited

namespace Cursor

def isFunctionModifier (t : Token) : Bool :=
  t.kind == .keyword && ["static", "async", "unsafe", "extern"].contains t.text

/-- The name of the local function that begins here, and the cursor behind the name. -/
def localFunctionName? (c : Cursor) : Option (Token × Cursor) :=
  match (c.skipWhile isFunctionModifier).type? with
  | none => none
  | some (_, c) =>
    match c.name? with
    | none => none
    | some (name, c) =>
      if c.sees "(" || c.typeArguments?.any (·.sees "(") then some (name, c) else none

def isLocalModifier (t : Token) : Bool :=
  (t.isIdentifier && t.text == "scoped") || t.isKeyword "ref" || t.isKeyword "readonly"

/-- The type of the declaration that begins here, and the cursor in front of its first name. -/
def declaredType? (context : LocalContext) (c : Cursor) : Option (LocalBeginning × Cursor) :=
  match c.type? with
  | none => none
  | some (isVar, c) =>
    let follows (mark : String) := c.seesSecond mark
    if c.seesName && (follows "=" || follows ";" || follows "," ||
        (context = .usingResource && follows ")")) then
      some (.type isVar, c)
    else none

/-- The pattern of the deconstruction that begins here, and the cursor behind its `=`. -/
def deconstruction? (usesVar : Bool) (c : Cursor) : Option (LocalBeginning × Cursor) :=
  match Declarator.pattern usesVar c with
  | (some names, c) => (c.eat? "=").map fun c => (.pattern names, c)
  | (none, _) => none

/-- The beginning of the local declaration that begins here. -/
def localDeclaration? (context : LocalContext) (c : Cursor) : Option (LocalBeginning × Cursor) :=
  let c := c.skipWhile isLocalModifier
  if c.seesKeyword "var" && c.seesSecond "(" then c.next.deconstruction? true
  else if c.sees "(" && context = .statement then c.deconstruction? false
  else c.declaredType? context

end Cursor

namespace Reading

variable (statement : StatementReader)

def declareLocal (s : Reading) (scope : ScopeId) (d : Declarator) (role : Role) (inForeach : Bool)
    (apparentness : Apparentness) (group : Option GroupPlace) : Reading :=
  s.declare scope
    { name := d.token.identifierName, role, kind := .localVariable, position := d.token.start, group
      localDetail := some { usesVar := d.usesVar, inForeach, apparentness } }

/-- Reads an initializer and classifies it. -/
def initializer (scope : ScopeId) (stops : List String) (s : Reading) : Apparentness × Reading :=
  let start := s.cursor
  let after := skipExpression statement scope stops s
  (Initializer.classify (start.upTo after.cursor), after)

/-- Reads the initializer of a declarator, if there is one. -/
def declaratorValue (scope : ScopeId) (s : Reading) : Apparentness × Reading :=
  match s.eat? "=" with
  | some s => initializer statement scope [","] s
  | none => (.notApplicable, s)

/-- Reads a local function behind its name. -/
def localFunction (scope : ScopeId) (name : Token) (s : Reading) : Reading :=
  let s := s.declareName scope name .privateMember .localFunction .isPrivate
  (methodRest statement scope name.identifierName s).settle

/-- Ends a local declaration behind its last declarator. -/
def endDeclaration (context : LocalContext) (scope : ScopeId) (s : Reading) : Reading :=
  if context = .usingResource then s
  else
    match s.eat? ";" with
    | some s => s
    | none => skipToStatementEnd statement scope (s.report (.expected "';' after local declaration"))

/-- The declarator at `index` with its initializer. -/
def declaratorRound (context : LocalContext) (scope : ScopeId) (isVar : Bool) (group : Option Nat) :
    Nat × Reading → Round (Nat × Reading) Reading
  | (index, s) =>
    match s.name? with
    | none =>
      .done (skipToStatementEnd statement scope (s.report (.expectedName "declarator after ','")))
    | some (token, s) =>
      let (apparentness, s) := declaratorValue statement scope s
      let role := if context = .constant then .constant else .localVariable
      let place := group.map fun group => { group, index }
      let s := s.declareLocal scope ⟨token, isVar⟩ role false apparentness place
      match s.eat? "," with
      | some s => .again (index + 1, s)
      | none => .done (endDeclaration statement context scope s)

/-- Reads the declarators of a local declaration. -/
def declarators (context : LocalContext) (scope : ScopeId) (isVar : Bool) (s : Reading) : Reading :=
  let (group, s) :=
    if context = .forInitializer then (none, s)
    else
      let (group, s) := s.newGroup
      (some group, s)
  rounds (·.2.size) (declaratorRound statement context scope isVar group) (·.2.stall) (0, s)

/-- Reads the value of a deconstruction and records its names. -/
def deconstruction (scope : ScopeId) (names : List Declarator) (s : Reading) : Reading :=
  let (apparentness, s) := initializer statement scope [] s
  let s := names.foldl (fun s d => s.declareLocal scope d .localVariable false apparentness none) s
  s.skip ";"

/-- Reads a local declaration behind its beginning. -/
def localDeclaration (context : LocalContext) (scope : ScopeId) (beginning : LocalBeginning) (s : Reading) :
    Reading :=
  match beginning with
  | .pattern names => deconstruction statement scope names s
  | .type isVar => declarators statement context scope isVar s

/-- Reads a local declaration if one begins here, and otherwise what `otherwise` reads. -/
def localDeclarationOr (context : LocalContext) (scope : ScopeId) (otherwise : Reading → Reading)
    (s : Reading) : Reading :=
  match s.cursor.localDeclaration? context with
  | some (beginning, cursor) => localDeclaration statement context scope beginning { s with cursor }
  | none => otherwise s

end Reading

end CSharpStyle
