import CSharpStyle.Proofs.CoreGrammar.Contents
import CSharpStyle.Proofs.Lexical.Identifier
import Mathlib.Data.List.Chain

/-!
# Core programs

Syntax trees of a small part of the language: using directives, namespaces with blocks, classes, structs and
interfaces, fields, properties with `get` and `set`, methods, locals with a literal, calls and blocks.

A tree knows the place of each of its tokens, and only trees of well-formed programs can be built: a name is never a
word that is read as something else, and modifiers are modifiers where they stand. What follows a declaration or a
statement is part of the tree, so that `rest` leads from one to the next.

* `Items.tokens`: the tokens of a program.
* `Items.contents`: what the program declares, and in which scopes.
-/

namespace CSharpStyle.CoreGrammar

/-! ### Words and marks -/

/-- The mark `text` at a place. -/
structure Mark (text : String) where
  span : Span

def Mark.token {text : String} (m : Mark text) : Token := ⟨.punctuation, text, m.span⟩

/-- The keyword `word` at a place. -/
structure Word (word : String) where
  span : Span

def Word.token {word : String} (w : Word word) : Token := ⟨.keyword, word, w.span⟩

structure Literal where
  text : String
  span : Span

def Literal.token (l : Literal) : Token := ⟨.literal, l.text, l.span⟩

/-- An identifier that is no modifier. No identifier is written `var`, which is a keyword, or with no character. -/
structure Name where
  text : String
  span : Span
  proper : text ∉ ["", "var", "file", "scoped"]

namespace Name

def token (n : Name) : Token := ⟨.identifier, n.text, n.span⟩

/-- What the name declares. -/
def declared (n : Name) : String := identifierName n.text

/-- Every identifier of a file is a name, but for the words `file` and `scoped`. -/
theorem exists_token_eq {source : String} {t : Token} (h : t ∈ (TokenStream.ofSource source).tokens)
    (ht : t.isIdentifier) (hfile : t.text ≠ "file") (hscoped : t.text ≠ "scoped") : ∃ n : Name, n.token = t := by
  obtain ⟨hempty, hkeyword⟩ := TokenStream.not_isKeyword_of_mem h ht
  have hvar : t.text ≠ "var" := by
    intro hvar
    rw [hvar] at hkeyword
    cases hkeyword
  obtain ⟨kind, text, span⟩ := t
  obtain rfl : kind = .identifier := eq_of_beq ht
  exact ⟨⟨text, span, by simp_all⟩, rfl⟩

end Name

/-- A name with qualifiers in front of it. -/
structure DottedName where
  first : Name
  others : List (Mark "." × Name)

namespace DottedName

def tokens (n : DottedName) : List Token :=
  n.first.token :: n.others.flatMap fun other => [other.1.token, other.2.token]

def text (n : DottedName) : String := joinedText n.tokens

end DottedName

/-- A type that is a single word. -/
inductive TypeWord
  | builtIn (word : String) (span : Span) (h : Keyword.isBuiltInType word)
  | named (name : Name)

def TypeWord.token : TypeWord → Token
  | builtIn word span _ => ⟨.keyword, word, span⟩
  | named name => name.token

structure Brackets (opener closer : String) where
  opening : Mark opener
  closing : Mark closer

abbrev Parentheses := Brackets "(" ")"

abbrev Braces := Brackets "\x7b" "\x7d"

def Brackets.around {opener closer : String} (b : Brackets opener closer) (inner : List Token) : List Token :=
  b.opening.token :: (inner ++ [b.closing.token])

/-! ### Modifiers -/

/-- The token is a modifier in front of `next`. The words `ref` and `file` are modifiers only there. -/
def isModifier (t next : Token) : Bool :=
  (t.kind == .keyword && (({} : Modifiers).add? t.text).isSome) ||
    (t.isKeyword "ref" && (next.isKeyword "struct" || next.isKeyword "partial" || next.isKeyword "readonly")) ||
    (t.isIdentifier && t.text == "file" && next.kind == .keyword)

/-- Modifiers in front of the token `next`. -/
structure Prefix (next : Token) where
  tokens : List Token
  chain : (tokens ++ [next]).IsChain fun t next => isModifier t next

/-- What the modifiers say. -/
def Prefix.modifiers {next : Token} (p : Prefix next) : Modifiers :=
  p.tokens.foldl (fun m t => (m.add? t.text).getD m) {}

/-! ### Statements -/

/-- The type of a local. -/
inductive LocalType
  | explicit (type : TypeWord)
  | inferred (word : Word "var")

namespace LocalType

def token : LocalType → Token
  | explicit type => type.token
  | inferred word => word.token

def isVar : LocalType → Bool
  | explicit _ => false
  | inferred _ => true

end LocalType

/-- The statements of a block, from one of them on. -/
inductive Statements
  | done
  /-- `T n = literal;` -/
  | declaration (type : LocalType) (name : Name) (assign : Mark "=") (value : Literal) (semicolon : Mark ";")
    (rest : Statements)
  /-- `n();` -/
  | call (name : Name) (parentheses : Parentheses) (semicolon : Mark ";") (rest : Statements)
  | block (braces : Braces) (inner rest : Statements)

def Statements.tokens : Statements → List Token
  | done => []
  | declaration type name assign value semicolon rest =>
    type.token :: name.token :: assign.token :: value.token :: semicolon.token :: rest.tokens
  | call name parentheses semicolon rest => name.token :: (parentheses.around [] ++ semicolon.token :: rest.tokens)
  | block braces inner rest => braces.around inner.tokens ++ rest.tokens

/-! ### Members -/

structure Parameter where
  type : TypeWord
  name : Name

def Parameter.tokens (p : Parameter) : List Token := [p.type.token, p.name.token]

inductive Parameters
  | none
  | some (first : Parameter) (others : List (Mark "," × Parameter))

namespace Parameters

def list : Parameters → List Parameter
  | none => []
  | some first others => first :: others.map (·.2)

def tokens : Parameters → List Token
  | none => []
  | some first others => first.tokens ++ others.flatMap fun other => other.1.token :: other.2.tokens

end Parameters

/-- An accessor `word;`. -/
structure Accessor (word : String) where
  span : Span
  semicolon : Mark ";"

def Accessor.tokens {word : String} (a : Accessor word) : List Token :=
  [⟨.identifier, word, a.span⟩, a.semicolon.token]

/-- The beginning `T n` of a member. -/
structure MemberHead where
  type : TypeWord
  modifiers : Prefix type.token
  name : Name

def MemberHead.tokens (h : MemberHead) : List Token := h.modifiers.tokens ++ [h.type.token, h.name.token]

/-- The keywords that begin a type. -/
inductive TypeKeyword
  | classWord
  | structWord
  | interfaceWord

namespace TypeKeyword

def word : TypeKeyword → String
  | classWord => "class"
  | structWord => "struct"
  | interfaceWord => "interface"

def kind : TypeKeyword → TypeKind
  | classWord => .classType
  | structWord => .structType
  | interfaceWord => .interfaceType

/-- The role of the name of the type. -/
def role : TypeKeyword → Role
  | classWord | structWord => .typeName
  | interfaceWord => .interfaceName

end TypeKeyword

/-- A type without its members. -/
structure TypeFrame where
  keyword : TypeKeyword
  word : Word keyword.word
  modifiers : Prefix word.token
  name : Name
  braces : Braces

def TypeFrame.tokens (f : TypeFrame) (members : List Token) : List Token :=
  f.modifiers.tokens ++ f.word.token :: f.name.token :: f.braces.around members

/-- The members of a type, from one of them on. -/
inductive Members
  | done
  /-- `T n;` -/
  | field (head : MemberHead) (semicolon : Mark ";") (rest : Members)
  /-- `T n { get; set; }` -/
  | property (head : MemberHead) (braces : Braces) (getter : Accessor "get") (setter : Accessor "set")
    (rest : Members)
  /-- `T n(…) { … }` -/
  | method (head : MemberHead) (parentheses : Parentheses) (parameters : Parameters) (braces : Braces)
    (body : Statements) (rest : Members)
  | type (frame : TypeFrame) (inner rest : Members)

def Members.tokens : Members → List Token
  | done => []
  | field head semicolon rest => head.tokens ++ semicolon.token :: rest.tokens
  | property head braces getter setter rest =>
    head.tokens ++ (braces.around (getter.tokens ++ setter.tokens) ++ rest.tokens)
  | method head parentheses parameters braces body rest =>
    head.tokens ++ (parentheses.around parameters.tokens ++ (braces.around body.tokens ++ rest.tokens))
  | type frame inner rest => frame.tokens inner.tokens ++ rest.tokens

/-! ### Files -/

/-- The contents of a file or a namespace, from one of them on. -/
inductive Items
  | done
  /-- `using A.B;` -/
  | directive (word : Word "using") (target : DottedName) (semicolon : Mark ";") (rest : Items)
  /-- `namespace A.B { … }` -/
  | block (word : Word "namespace") (name : DottedName) (braces : Braces) (inner rest : Items)
  | type (frame : TypeFrame) (members : Members) (rest : Items)

def Items.tokens : Items → List Token
  | done => []
  | directive word target semicolon rest => word.token :: (target.tokens ++ semicolon.token :: rest.tokens)
  | block word name braces inner rest => word.token :: (name.tokens ++ (braces.around inner.tokens ++ rest.tokens))
  | type frame members rest => frame.tokens members.tokens ++ rest.tokens

/-! ### What a program declares -/

/-- A block is a scope. A local is the only one of its group, and its type is apparent from the literal. -/
def Statements.contents : Statements → Contents
  | done => .done
  | declaration type name _ _ _ rest =>
    .grouped
      { name := name.declared, role := .localVariable, kind := .localVariable, position := name.span.start
        localDetail := some { usesVar := type.isVar, inForeach := false, apparentness := .apparent } }
      rest.contents
  | call _ _ _ rest => rest.contents
  | block _ inner rest => .scope .block none none inner.contents rest.contents

def Parameter.declaration (p : Parameter) : Declaration :=
  { name := p.name.declared, role := .parameter, kind := .parameter, position := p.name.span.start }

/-- The parameters and what stands behind them. -/
def Parameters.contents (ps : Parameters) (rest : Contents) : Contents :=
  ps.list.foldr (fun p c => .declaration p.declaration c) rest

/-- The declaration of a member of a type of kind `owner`. -/
def MemberHead.declaration (h : MemberHead) (kind : DeclarationKind) (owner : TypeKind) : Declaration :=
  { name := h.name.declared, role := .ofMember kind h.modifiers.modifiers owner, kind, position := h.name.span.start
    accessibility := h.modifiers.modifiers.accessibilityIn owner }

/-- The name of a type, its body with `members`, and what stands behind it. -/
def TypeFrame.contents (f : TypeFrame) (accessibility : Accessibility) (members rest : Contents) : Contents :=
  .declaration
    { name := f.name.declared, role := f.keyword.role, kind := .type, position := f.name.span.start, accessibility }
    (.scope .typeBody (some f.name.declared) (some f.keyword.kind) members rest)

/-- The members of a type of kind `owner`. The accessors of a property are a scope, and so is a method with its
parameters, in which the body is one more. -/
def Members.contents (owner : TypeKind) : Members → Contents
  | done => .done
  | field head _ rest => .grouped (head.declaration .field owner) (rest.contents owner)
  | property head _ _ _ rest =>
    .declaration (head.declaration .property owner)
      (.scope .method (some head.name.declared) none .done (rest.contents owner))
  | method head _ parameters _ body rest =>
    .declaration (head.declaration .method owner)
      (.scope .method (some head.name.declared) none
        (parameters.contents (.scope .block none none body.contents .done)) (rest.contents owner))
  | type frame inner rest =>
    frame.contents (frame.modifiers.modifiers.accessibilityIn owner) (inner.contents frame.keyword.kind)
      (rest.contents owner)

/-- The contents of a namespace, or of a file. -/
def Items.contents (namespaceName : Option String) : Items → Contents
  | done => .done
  | directive word target _ rest =>
    .directive
      { target := target.text, aliasName := none, isStatic := false, isGlobal := false, position := word.span.start
        insideNamespace := namespaceName.isSome, namespaceName }
      (rest.contents namespaceName)
  | block _ name _ inner rest =>
    .scope .namespaceBody (some name.text) none (inner.contents (some name.text)) (rest.contents namespaceName)
  | type frame members rest =>
    frame.contents frame.modifiers.modifiers.accessibility (members.contents frame.keyword.kind)
      (rest.contents namespaceName)

end CSharpStyle.CoreGrammar
