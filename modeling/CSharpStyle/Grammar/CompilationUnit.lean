import CSharpStyle.Grammar.Member
import CSharpStyle.Lexical.Lexer

/-!
# Compilation units

The outline of a file is read from its significant tokens: namespaces, using directives, types and top-level
statements. Reading always ends with all tokens consumed; what is malformed is reported and skipped.
-/

namespace CSharpStyle

namespace Cursor

/-- Whether a name and its qualifiers are followed by `;` or `=`. -/
def endsDirective : List Token → Bool
  | [] => false
  | t :: rest =>
    if t.isPunctuation ";" || t.isPunctuation "=" then true
    else if t.isPunctuation "." || t.isPunctuation "::" then
      match rest with
      | name :: rest => name.isName && endsDirective rest
      | [] => false
    else false

/-- A using directive begins here, and not a using statement. -/
def seesUsingDirective (c : Cursor) : Bool :=
  let c := c.skipKeyword "global"
  match c.eatKeyword? "using" with
  | none => false
  | some c =>
    match c.ahead with
    | [] => false
    | t :: rest => t.isKeyword "static" || (t.isName && endsDirective rest)

end Cursor

/-- The text of tokens without what separates them. -/
def joinedText (tokens : List Token) : String := String.join (tokens.map (·.text))

/-- What the members of a namespace, or of a file, are read with. -/
structure NamespaceBody where
  scope : ScopeId
  insideNamespace : Bool
  /-- The brace that has to be closed. -/
  opening : Option Position

/-- Reads the members of a namespace. -/
abbrev NamespaceReader := NamespaceBody → Reading → Reading

namespace Reading

/-- Consumes tokens up to the next mark in `marks` and gives their text. -/
def takeText (p : Token → Bool) (s : Reading) : String × Reading :=
  (joinedText (s.ahead.takeWhile p), s.move (.skipWhile p))

/-- Reads the alias of a using directive and the sign behind it. -/
def aliasName (s : Reading) : Option String × Reading :=
  match s.name? with
  | some (name, behind) =>
    match behind.eat? "=" with
    | some behind => (some name.identifierName, behind)
    | none => (none, s)
  | none => (none, s)

def usingDirective (body : NamespaceBody) (s : Reading) : Reading :=
  let namespaceName := if body.insideNamespace then s.outline.scopeName body.scope else none
  let position := s.position
  let isGlobal := s.seesKeyword "global"
  let s := s.move fun c => (c.skipKeyword "global").skipKeyword "using"
  let isStatic := s.seesKeyword "static"
  let (aliasName, s) := (s.move (·.skipKeyword "static")).aliasName
  let (target, s) := s.takeText fun t => !(t.isPunctuation ";" || t.isPunctuation "\x7d")
  let s := s.require ";" (.expected "';' after using directive")
  let directive : UsingDirective :=
    { target, aliasName, isStatic, isGlobal, position, insideNamespace := body.insideNamespace, namespaceName }
  { s with outline := s.outline.addUsing directive }

variable (members : NamespaceReader)

/-- Reads a namespace from its keyword. One without a block extends to the end of the body around it, and so
ends that body too. -/
def namespaceDeclaration (body : NamespaceBody) (s : Reading) : Round Reading Reading :=
  let (name, s) := s.next.takeText fun t => t.isName || t.isPunctuation "." || t.isPunctuation "::"
  if name == "" then .again (s.report (.nameless "namespace declaration")).recover
  else
    let (scope, s) := s.openScope .namespaceBody (some name) body.scope
    match s.eat? ";" with
    | some s => .done (members ⟨scope, true, body.opening⟩ s)
    | none =>
      match s.eat? "\x7b" with
      | some inner => .again (members ⟨scope, true, some s.position⟩ inner)
      | none => .again (s.report (.expected "'\x7b' or ';' after namespace name")).recover

/-- Reads a type with its header, attributes of the assembly, or a top-level statement. -/
def typeOrStatement (scope : ScopeId) (s : Reading) : Reading :=
  let (header, behind) := s.header
  if behind.cursor.seesTypeDeclaration then TypeDeclaration.read scope header behind
  else if header.hasAttributes && header.modifiers = {} then behind
  else Statement.read scope s

/-- One member of a namespace, or its end. -/
def namespaceRound (body : NamespaceBody) (s : Reading) : Round Reading Reading :=
  match s.peek? with
  | none =>
    match body.opening with
    | some opening => .done (s.reportAt opening (.neverClosed "namespace"))
    | none => .done s
  | some t =>
    if t.isPunctuation "\x7d" then
      if body.opening.isSome then .done s.next else .again (s.report .unmatchedBrace).next
    else if s.cursor.seesUsingDirective then .again (usingDirective body s)
    else if t.isKeyword "namespace" then namespaceDeclaration members body s
    else if t.isKeyword "extern" && s.cursor.second?.any (·.text == "alias") then
      .again (statementEnd body.scope s)
    else .again (s.progress (typeOrStatement body.scope))

end Reading

namespace NamespaceBody

/-- Reads the members of a body and the brace that closes it. -/
def read (body : NamespaceBody) (s : Reading) : Reading :=
  rounds Reading.size
    (Reading.namespaceRound (fun inner t => if t.size < s.size then read inner t else t.stall) body)
    Reading.stall s
termination_by s.size

/-- The body of a whole file. -/
def file : NamespaceBody := ⟨Outline.root, false, none⟩

end NamespaceBody

/-- What was read from a file. -/
structure CompilationUnit where
  outline : Outline
  errors : List StructureError
  deriving DecidableEq, Repr, Inhabited

namespace CompilationUnit

/-- The unit that consists of the given significant tokens. -/
def ofTokens (tokens : List Token) : CompilationUnit :=
  let s := NamespaceBody.file.read (.ofTokens tokens)
  ⟨s.outline, s.errors.toList⟩

def ofSource (source : String) : CompilationUnit := ofTokens (TokenStream.ofSource source).significant

end CompilationUnit

end CSharpStyle
