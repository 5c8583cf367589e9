import CSharpStyle.Source.Position

/-!
# Tokens

A token is a piece of the source text with its kind. White space, comments and preprocessor directives are
trivia: they separate the significant tokens and have no meaning of their own.

Reserved words can never be identifiers. The contextual keywords listed here are recognised everywhere, but
may still name variables and members. The words `true`, `false` and `null` are literals.

An unterminated ordinary string or character literal ends with its line; an unterminated verbatim or raw
string and an unterminated comment reach to the end of the text. Reading goes on after them.
-/

namespace CSharpStyle

inductive TokenKind
  | identifier
  | keyword
  | punctuation
  /-- A string, character or number, or one of the words `true`, `false` and `null`. -/
  | literal
  | comment
  | whitespace
  /-- A preprocessor line such as `#region`. -/
  | directive
  deriving DecidableEq, Repr, Inhabited

def TokenKind.isTrivia : TokenKind → Bool
  | whitespace | comment | directive => true
  | identifier | keyword | punctuation | literal => false

structure Token where
  kind : TokenKind
  text : String
  span : Span
  deriving DecidableEq, Repr, Inhabited

namespace Token

def start (t : Token) : Position := t.span.start

def line (t : Token) : Nat := t.span.start.line

def isTrivia (t : Token) : Bool := t.kind.isTrivia

def isIdentifier (t : Token) : Bool := t.kind == .identifier

def isLiteral (t : Token) : Bool := t.kind == .literal

/-- The token is the punctuation mark `mark`. -/
def isPunctuation (t : Token) (mark : String) : Bool := t.kind == .punctuation && t.text == mark

/-- The token is the keyword `word`. -/
def isKeyword (t : Token) (word : String) : Bool := t.kind == .keyword && t.text == word

end Token

/-- An identifier without the `@` that lets a keyword serve as a name. -/
def identifierName (text : String) : String :=
  match text.toList with
  | '@' :: name => String.ofList name
  | _ => text

def Token.identifierName (t : Token) : String := CSharpStyle.identifierName t.text

/-! ### Keywords -/

namespace Keyword

def reserved : List String :=
  ["abstract", "as", "base", "bool", "break", "byte", "case", "catch", "char", "checked", "class", "const",
   "continue", "decimal", "default", "delegate", "do", "double", "else", "enum", "event", "explicit", "extern",
   "finally", "fixed", "float", "for", "foreach", "goto", "if", "implicit", "in", "int", "interface",
   "internal", "is", "lock", "long", "namespace", "new", "object", "operator", "out", "override", "params",
   "private", "protected", "public", "readonly", "ref", "return", "sbyte", "sealed", "short", "sizeof",
   "stackalloc", "static", "string", "struct", "switch", "this", "throw", "try", "typeof", "uint", "ulong",
   "unchecked", "unsafe", "ushort", "using", "virtual", "void", "volatile", "while"]

def contextual : List String :=
  ["async", "await", "global", "partial", "record", "required", "var", "when", "where", "yield"]

/-- Keywords that name a built-in type. -/
def builtInTypes : List String :=
  ["bool", "byte", "char", "decimal", "double", "float", "int", "long", "object", "sbyte", "short", "string",
   "uint", "ulong", "ushort", "void"]

def isKeyword (word : String) : Bool := reserved.contains word || contextual.contains word

def isContextual (word : String) : Bool := contextual.contains word

def isBuiltInType (word : String) : Bool := builtInTypes.contains word

def isLiteral (word : String) : Bool := ["true", "false", "null"].contains word

end Keyword

/-! ### Malformed lexemes -/

/-- What is wrong with a lexeme. -/
inductive LexicalFault
  | unterminatedString
  | unterminatedCharacter
  | unterminatedComment
  | unexpectedCharacter (c : Char)
  deriving DecidableEq, Repr, Inhabited

def LexicalFault.message : LexicalFault → String
  | unterminatedString => "unterminated string literal"
  | unterminatedCharacter => "unterminated character literal"
  | unterminatedComment => "unterminated block comment"
  | unexpectedCharacter c => s!"unexpected character '{c}'"

/-- A malformed lexeme, with the piece of text that reading consumed. -/
structure LexicalError where
  fault : LexicalFault
  text : String
  span : Span
  deriving DecidableEq, Repr, Inhabited

namespace LexicalError

def start (e : LexicalError) : Position := e.span.start

def message (e : LexicalError) : String := s!"{e.fault.message} at {e.start.text}"

end LexicalError

end CSharpStyle
