import CSharpStyle.Grammar.Statement

/-!
# Types and their members

A malformed member is reported and skipped, so that the members behind it are still recorded. A type may hold
types, which are read with fewer tokens ahead.
-/

namespace CSharpStyle

namespace Cursor

/-- A declaration of a type begins here. The word `record` begins one only in front of a name or of `class` or
`struct`. -/
def seesTypeDeclaration (c : Cursor) : Bool :=
  match c.peek? with
  | none => false
  | some t =>
    t.kind == .keyword &&
      (["class", "struct", "interface", "enum", "delegate"].contains t.text ||
        (t.text == "record" &&
          c.second?.any fun t => t.isName || t.isKeyword "class" || t.isKeyword "struct"))

theorem size_next_next_lt_of_sees {c : Cursor} (h : c.skipTypeArguments.sees ".") :
    c.skipTypeArguments.next.next.size < c.size := by
  have hnext := size_next_lt (ahead_ne_nil_of_sees h)
  have hnext' := size_next_le c.skipTypeArguments.next
  have hskip := size_skipTypeArguments_le c
  omega

/-- Reads the name of a member that may be qualified by the interface it implements. Gives the last segment,
and whether there was a qualifier. -/
def qualifiedMember (name : Token) (isExplicit : Bool) (c : Cursor) : (Token × Bool) × Cursor :=
  let qualifier := c.skipTypeArguments
  if _h : qualifier.sees "." then
    match qualifier.next.peek? with
    | none => ((name, isExplicit), c)
    | some t =>
      if t.isName then qualifiedMember t true qualifier.next.next
      else if t.isKeyword "this" then ((name, true), qualifier.next)
      else ((name, isExplicit), c)
  else ((name, isExplicit), c)
termination_by c.size
decreasing_by exact size_next_next_lt_of_sees ‹_›

end Cursor

/-- Reads a type declaration in a scope, behind its header. -/
abbrev TypeReader := ScopeId → Header → Reading → Reading

namespace Reading

/-- A member of the type of kind `owner` in whose scope it stands. -/
structure Place where
  scope : ScopeId
  owner : TypeKind

/-- Records a member. -/
def declareMember (s : Reading) (place : Place) (header : Header) (name : Token) (kind : DeclarationKind)
    (group : Option GroupPlace) : Reading :=
  s.declare place.scope
    { name := name.identifierName, role := .ofMember kind header.modifiers place.owner, kind
      position := name.start, accessibility := header.modifiers.accessibilityIn place.owner, group }

def statementEnd (scope : ScopeId) (s : Reading) : Reading := skipToStatementEnd Statement.read scope s

/-- One accessor, or the end of the list. -/
def accessorRound (opening : Position) (scope : ScopeId) (s : Reading) : Round Reading Reading :=
  let (_, s) := s.header
  match s.peek? with
  | none => .done (s.reportAt opening (.neverClosed "accessor list"))
  | some t =>
    if t.isPunctuation "\x7d" then
      match s.next.eat? "=" with
      | some s => .done (statementEnd scope s)
      | none => .done s.next
    else if ["get", "set", "init", "add", "remove"].contains t.text then
      match s.next.eat? ";" with
      | some s => .again s
      | none => .again (methodBody Statement.read scope s.next).settle
    else .again (s.report (.unexpectedAccessor t.text)).recover

/-- Reads a list of accessors with the initializer behind it, or an expression body. -/
def accessors (scope : ScopeId) (s : Reading) : Attempt :=
  match s.eat? "=>" with
  | some s => .complete (statementEnd scope s)
  | none =>
    match s.eat? "\x7b" with
    | none => .malformed (s.report (.expected "accessor list"))
    | some inner => .complete (rounds size (accessorRound s.position scope) stall inner)

/-- The declarator of a field or event at `index`, whose name is `name`. -/
def fieldRound (place : Place) (header : Header) (kind : DeclarationKind) (group : Nat) :
    (Token × Nat) × Reading → Round ((Token × Nat) × Reading) Attempt
  | ((name, index), s) =>
    let s := s.declareMember place header name kind (some { group, index })
    let s := skipValue Statement.read place.scope (s.skipGroupAt "[")
    match s.eat? "," with
    | some s =>
      match s.name? with
      | some (name, s) => .again ((name, index + 1), s)
      | none => .done (.malformed (s.report (.expectedName "declarator after ','")))
    | none =>
      match s.eat? ";" with
      | some s => .done (.complete s)
      | none => .done (.malformed (s.report (.expected "';' after field declaration")))

/-- Reads the declarators of a field or event from behind the first name. -/
def fields (place : Place) (header : Header) (name : Token) (kind : DeclarationKind) (s : Reading) : Attempt :=
  let (group, s) := s.newGroup
  rounds (·.2.size) (fieldRound place header kind group) (.malformed ·.2.stall) ((name, 0), s)

/-- Reads a property, or an event with accessors, from behind its name. -/
def memberWithAccessors (place : Place) (header : Header) (name : Token) (isExplicit : Bool)
    (kind : DeclarationKind) (s : Reading) : Attempt :=
  let s := if isExplicit then s else s.declareMember place header name kind none
  let (scope, s) := s.openScope .method (some name.identifierName) place.scope
  accessors scope s

/-- The name behind `first` and its qualifiers. -/
def memberName (first : Token) (s : Reading) : (Token × Bool) × Reading :=
  let (name, cursor) := s.cursor.qualifiedMember first false
  (name, { s with cursor })

def event (place : Place) (header : Header) (s : Reading) : Attempt :=
  match s.type? with
  | none => .malformed (s.report (.expected "event type"))
  | some (_, s) =>
    match s.name? with
    | none => .malformed (s.report (.nameless "event declaration"))
    | some (first, s) =>
      let ((name, isExplicit), s) := s.memberName first
      if s.sees "\x7b" then memberWithAccessors place header name isExplicit .event s
      else fields place header name .event s

/-- Reads a method, property or field from behind its type and first name. -/
def namedMember (place : Place) (header : Header) (first : Token) (s : Reading) : Attempt :=
  let ((name, isExplicit), s) := s.memberName first
  if s.sees "(" || s.sees "<" then
    let s := if isExplicit then s else s.declareMember place header name .method none
    methodRest Statement.read place.scope name.identifierName s
  else if s.sees "\x7b" || s.sees "=>" then memberWithAccessors place header name isExplicit .property s
  else if s.sees "=" || s.sees ";" || s.sees "," || s.sees "[" then fields place header name .field s
  else .malformed (s.report (.expected "field, property or method body"))

/-- Reads a member that begins with its type, which comes after `ref` if it returns a reference. -/
def typedMember (place : Place) (header : Header) (s : Reading) : Attempt :=
  let start := s
  let s := (s.eatKeyword? "ref").elim s (·.move (·.skipKeyword "readonly"))
  match s.type? with
  | none => .malformed (s.report (.notAMember (start.peek?.elim "" (·.text))))
  | some (_, s) =>
    if s.seesKeyword "this" && s.cursor.seesSecond "[" then
      let (indexer, s) := s.next.openScope .method (some "this") place.scope
      accessors indexer (parameterList Statement.read indexer .parameter .parameter s)
    else
      match s.eatKeyword? "operator" with
      | some s =>
        methodRest Statement.read place.scope "operator" (s.move (.skipWhile (!·.isPunctuation "(")))
      | none =>
        match s.name? with
        | some (first, s) => namedMember place header first s
        | none => .malformed (s.report (.nameless "member declaration"))

def conversionOperator (scope : ScopeId) (s : Reading) : Attempt :=
  match s.eatKeyword? "operator" with
  | none => .malformed (s.report (.malformed "conversion operator"))
  | some s =>
    match s.type? with
    | none => .malformed (s.report (.malformed "conversion operator"))
    | some (_, s) => methodRest Statement.read scope "operator" s

def finalizer (scope : ScopeId) (s : Reading) : Attempt :=
  match s.name? with
  | none => .malformed (s.report (.nameless "finalizer"))
  | some (_, s) => methodRest Statement.read scope "finalizer" s

variable (typeDeclaration : TypeReader)

/-- Reads one member of a type. -/
def member (place : Place) (s : Reading) : Attempt :=
  let (header, s) := s.header
  match s.peek? with
  | none => .complete s
  | some t =>
    if t.isPunctuation "\x7d" then .complete s
    else if s.cursor.seesTypeDeclaration then .complete (typeDeclaration place.scope header s)
    else if t.isKeyword "event" then event place header s.next
    else if t.isKeyword "implicit" || t.isKeyword "explicit" then conversionOperator place.scope s.next
    else if t.isPunctuation "~" then finalizer place.scope s.next
    else if t.isName && s.cursor.seesSecond "(" then
      methodRest Statement.read place.scope t.identifierName s.next
    else typedMember place header s

def typeBodyRound (opening : Position) (place : Place) (s : Reading) : Round Reading Reading :=
  match s.peek? with
  | none => .done (s.reportAt opening (.neverClosed "type body"))
  | some t =>
    if t.isPunctuation "\x7d" then .done s.next
    else if t.isPunctuation ";" then .again s.next
    else .again (s.progress fun s => (member typeDeclaration place s).settle)

/-- Reads the members of a type behind its opening brace. -/
def typeBody (opening : Position) (place : Place) (s : Reading) : Reading :=
  rounds size (typeBodyRound typeDeclaration opening place) stall s

/-- One member of an enumeration, or the end of its body. -/
def enumRound (opening : Position) (scope : ScopeId) (s : Reading) : Round Reading Reading :=
  let s := s.move .skipAttributes
  match s.peek? with
  | none => .done (s.reportAt opening (.neverClosed "enum body"))
  | some t =>
    if t.isPunctuation "\x7d" then .done s.next
    else
      match s.name? with
      | none => .again (s.report (.expectedName "enum member name")).next
      | some (name, s) =>
        let s := s.declareName scope name .publicMember .enumMember .isPublic
        let s := skipValue Statement.read scope s
        match s.eat? "," with
        | some s => .again s
        | none =>
          if s.sees "\x7d" then .again s
          else .again (s.report (.expected "',' between enum members")).recover

def enumBody (opening : Position) (scope : ScopeId) (s : Reading) : Reading :=
  rounds size (enumRound opening scope) stall s

/-- The kind of type that a keyword declares. -/
def declaredKind : String → TypeKind
  | "class" => .classType
  | "struct" => .structType
  | "interface" => .interfaceType
  | "enum" => .enumType
  | "delegate" => .delegateType
  | _ => .recordType

def delegate (scope : ScopeId) (header : Header) (s : Reading) : Reading :=
  match s.type? with
  | none => (s.report (.expected "delegate return type")).recover
  | some (_, s) =>
    match s.name? with
    | none => (s.report (.nameless "delegate declaration")).recover
    | some (name, s) =>
      let s := s.declareName scope name .typeName .type header.modifiers.accessibility
      let (method, s) := s.openScope .method (some name.identifierName) scope
      let s := s.typeParameters method
      let s := if s.sees "(" then parameterList Statement.read method .parameter .parameter s else s
      let s := s.skipConstraints
      match s.eat? ";" with
      | some s => s
      | none => (s.report (.expected "';' after delegate declaration")).recover

/-- Reads the parameters behind the name of a type: the properties of a record, or the parameters of a
constructor. -/
def primaryParameters (scope : ScopeId) (kind : TypeKind) (name : Token) (s : Reading) : Reading :=
  if s.sees "(" then
    if kind = .recordType then parameterList Statement.read scope .publicMember .recordProperty s
    else
      let (constructor, s) := s.openScope .method (some name.identifierName) scope
      parameterList Statement.read constructor .parameter .parameter s
  else s

def isBodyMark (t : Token) : Bool := t.kind == .punctuation && ["\x7b", ";", "\x7d"].contains t.text

/-- Reads the body of a type, or the semicolon in place of one. -/
def bodyOfType (scope : ScopeId) (kind : TypeKind) (s : Reading) : Reading :=
  match s.eat? "\x7b" with
  | some inner =>
    let behind :=
      if kind = .enumType then enumBody s.position scope inner
      else typeBody typeDeclaration s.position ⟨scope, kind⟩ inner
    behind.skip ";"
  | none => s.require ";" (.expected "type body")

/-- The role of the name of a type. -/
def typeRole (kind : TypeKind) : Role := if kind = .interfaceType then .interfaceName else .typeName

/-- The accessibility of a type in the body of a type of kind `owner`, or outside all types. -/
def typeAccessibility (header : Header) (owner : Option TypeKind) : Accessibility :=
  match owner with
  | some owner => header.modifiers.accessibilityIn owner
  | none => header.modifiers.accessibility

/-- Reads a type from behind its keyword `word`. -/
def namedType (word : String) (kind : TypeKind) (scope : ScopeId) (header : Header) (s : Reading) : Reading :=
  match s.name? with
  | none => (s.report (.nameless s!"{word} declaration")).recover
  | some (name, s) =>
    let accessibility := typeAccessibility header (s.outline.typeKindOf scope)
    let s := s.declareName scope name (typeRole kind) .type accessibility
    let (inner, s) := s.openType kind name.identifierName scope
    let s := primaryParameters inner kind name (s.typeParameters inner)
    bodyOfType typeDeclaration inner kind (s.move (.skipUntil isBodyMark))

/-- Reads the type declaration that begins at the next token. -/
def typeDeclarationAt (scope : ScopeId) (header : Header) (s : Reading) : Reading :=
  match s.peek? with
  | none => s
  | some t =>
    match declaredKind t.text with
    | .delegateType => delegate scope header s.next
    | .recordType =>
      namedType typeDeclaration t.text .recordType scope header (s.next.move (·.skipEither "class" "struct"))
    | kind => namedType typeDeclaration t.text kind scope header s.next

end Reading

/-- Reads the type declaration that begins at the next token. -/
def TypeDeclaration.read (scope : ScopeId) (header : Header) (s : Reading) : Reading :=
  Reading.typeDeclarationAt (fun inner header t => if t.size < s.size then read inner header t else t.stall)
    scope header s
termination_by s.size

end CSharpStyle
