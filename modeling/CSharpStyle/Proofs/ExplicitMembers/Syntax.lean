import CSharpStyle.Proofs.CoreGrammar.Members

/-!
# Explicit implementations of interface members

Syntax trees of the members `T Q.M(…) { }`, `T Q.P { get; set; }` and `T Q.this[…] { get; set; }`, where `T` is a
single word and `Q` the dotted name of an interface, which may end with type arguments.

* `ExplicitMember.tokens`: the tokens of a member.
* `ExplicitMember.contents` and `ExplicitMember.defects`: what is recorded and reported of it. An indexer is reported
  at its word `this`, and none of its parameters is recorded.
-/

namespace CSharpStyle

open CoreGrammar (Mark Word Brackets Parentheses Braces Accessor)

namespace ExplicitMember

/-- An identifier at a place. -/
structure Identifier where
  text : String
  span : Span

def Identifier.token (i : Identifier) : Token := ⟨.identifier, i.text, i.span⟩

/-- What the identifier declares. -/
def Identifier.declared (i : Identifier) : String := identifierName i.text

/-- A built-in type or an identifier. -/
inductive TypeName
  | builtIn (word : String) (span : Span) (h : Keyword.isBuiltInType word)
  | named (name : Identifier)

def TypeName.token : TypeName → Token
  | builtIn word span _ => ⟨.keyword, word, span⟩
  | named name => name.token

/-- What stands between angle brackets: names, built-in types and the marks of types, with matching angle brackets.
All lists of types are of this form. -/
inductive TypeList
  | done
  | word (t : Token) (h : t.isName || t.isBuiltInType) (rest : TypeList)
  | mark (text : String) (h : text ∈ [",", ".", "::", "?", "[", "]", "(", ")", "*"]) (m : Mark text) (rest : TypeList)
  | nested (opening : Mark "<") (inner : TypeList) (closing : Mark ">") (rest : TypeList)

def TypeList.tokens : TypeList → List Token
  | done => []
  | word t _ rest => t :: rest.tokens
  | mark _ _ m rest => m.token :: rest.tokens
  | nested opening inner closing rest => opening.token :: (inner.tokens ++ closing.token :: rest.tokens)

/-- The type arguments behind a name. -/
inductive TypeArguments
  | none
  | some (opening : Mark "<") (arguments : TypeList) (closing : Mark ">")

def TypeArguments.tokens : TypeArguments → List Token
  | none => []
  | some opening arguments closing => opening.token :: (arguments.tokens ++ [closing.token])

/-- The name of an interface, and the dot behind it. -/
structure Qualifier where
  first : Identifier
  others : List (Mark "." × Identifier)
  arguments : TypeArguments
  dot : Mark "."

namespace Qualifier

/-- The tokens behind the first segment. -/
def rest (q : Qualifier) : List Token :=
  (q.others.flatMap fun other => [other.1.token, other.2.token]) ++ (q.arguments.tokens ++ [q.dot.token])

def tokens (q : Qualifier) : List Token := q.first.token :: q.rest

end Qualifier

/-- A parameter `T n`. -/
structure Parameter where
  type : TypeName
  name : Identifier

/-- The type is the word `scoped`, which in front of a parameter is a modifier. -/
def Parameter.isScoped (p : Parameter) : Bool := p.type.token.text == "scoped"

/-- A list of at least one parameter. -/
structure Parameters where
  first : Parameter
  others : List (Mark "," × Parameter)

namespace Parameters

def list (ps : Parameters) : List Parameter := ps.first :: ps.others.map (·.2)

def tokens (ps : Parameters) : List Token :=
  [ps.first.type.token, ps.first.name.token] ++
    ps.others.flatMap fun other => [other.1.token, other.2.type.token, other.2.name.token]

/-- What is recorded of the parameters. -/
def declared (ps : Parameters) : List Declaration :=
  ps.list.map fun p =>
    { name := p.name.declared, role := .parameter, kind := .parameter, position := p.name.span.start }

end Parameters

/-- The beginning `T Q.` of a member. -/
structure Head where
  type : TypeName
  qualifier : Qualifier

def Head.tokens (head : Head) : List Token := head.type.token :: head.qualifier.tokens

/-- The accessors `{ get; set; }`. -/
structure Accessors where
  braces : Braces
  getter : Accessor "get"
  setter : Accessor "set"

def Accessors.tokens (a : Accessors) : List Token := a.braces.around (a.getter.tokens ++ a.setter.tokens)

end ExplicitMember

open ExplicitMember in
/-- A member that implements one of an interface by name. -/
inductive ExplicitMember
  | method (head : Head) (name : Identifier) (parentheses : Parentheses) (parameters : Parameters) (braces : Braces)
  | property (head : Head) (name : Identifier) (accessors : Accessors)
  | indexer (head : Head) (word : Word "this") (brackets : Brackets "[" "]") (parameters : Parameters)
    (accessors : Accessors)

namespace ExplicitMember

def tokens : ExplicitMember → List Token
  | method head name parentheses parameters braces =>
    head.tokens ++ name.token :: (parentheses.around parameters.tokens ++ braces.around [])
  | property head name accessors => head.tokens ++ name.token :: accessors.tokens
  | indexer head word brackets parameters accessors =>
    head.tokens ++ word.token :: (brackets.around parameters.tokens ++ accessors.tokens)

/-- What is recorded of a member in front of what else its type holds. A method is a scope with its parameters, in
which the body is one more, and a property is a scope. -/
def contents : ExplicitMember → Contents → Contents
  | method _ name _ parameters _, rest =>
    .scope .method (some name.declared) none
      ((Contents.scope .block none none .done .done).behind parameters.declared) rest
  | property _ name _, rest => .scope .method (some name.declared) none .done rest
  | indexer .., rest => rest

/-- A parameter of the method is of a type called `scoped`. -/
def isScoped : ExplicitMember → Bool
  | method _ _ _ parameters _ => parameters.list.any (·.isScoped)
  | _ => false

def isIndexer : ExplicitMember → Bool
  | indexer .. => true
  | _ => false

/-- What is reported of a member, unless it is a method with a parameter of a type called `scoped`. -/
def defects : ExplicitMember → List StructureError
  | indexer _ word _ _ _ => [⟨.expected "field, property or method body", word.span.start⟩]
  | _ => []

end ExplicitMember

end CSharpStyle
