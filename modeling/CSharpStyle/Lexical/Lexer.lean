import CSharpStyle.Lexical.Lexeme

/-!
# Lexical analysis

A lexer stands at a position of a text and gives the tokens and the malformed lexemes in front of it one by
one. It is a value: keeping a lexer keeps the place, and `Lexer.ofSource` starts over.

* `Lexer.next?_rest_length_lt` : every item makes the remaining text shorter.
-/

namespace CSharpStyle

/-- A token or a malformed lexeme. -/
inductive LexicalItem
  | token (token : Token)
  | error (error : LexicalError)
  deriving DecidableEq, Repr, Inhabited

namespace LexicalItem

def span : LexicalItem → Span
  | token t => t.span
  | error e => e.span

/-- The piece of the source that the item covers. -/
def text : LexicalItem → String
  | token t => t.text
  | error e => e.text

def token? : LexicalItem → Option Token
  | token t => some t
  | error _ => none

def error? : LexicalItem → Option LexicalError
  | token _ => none
  | error e => some e

end LexicalItem

/-- A place in a text: what lies ahead, and whether only white space precedes it on its line. -/
structure Lexer where
  position : Position
  atLineStart : Bool
  rest : List Char
  deriving Repr, Inhabited

namespace Lexer

def ofSource (source : String) : Lexer := ⟨.start, true, source.toList⟩

/-- Whether a directive may stand behind the lexeme. White space keeps the answer, or makes it true when it
ends a line; everything else makes it false. -/
def lineStartAfter (atLineStart : Bool) (lexeme : Lexeme) : Bool :=
  match lexeme.kind with
  | .ok .whitespace => atLineStart || lexeme.taken.contains '\n'
  | _ => false

def itemOf (lexeme : Lexeme) (span : Span) : LexicalItem :=
  match lexeme.kind with
  | .ok kind => .token ⟨kind, String.ofList lexeme.taken, span⟩
  | .error fault => .error ⟨fault, String.ofList lexeme.taken, span⟩

/-- The next item and the lexer behind it, unless the text has ended. -/
def next? (lexer : Lexer) : Option (LexicalItem × Lexer) :=
  match lexer.rest with
  | [] => none
  | c :: ahead =>
    let lexeme := Lexeme.ofText lexer.atLineStart c ahead
    let stop := lexer.position.advance lexeme.taken
    some (itemOf lexeme ⟨lexer.position, stop⟩,
      ⟨stop, lineStartAfter lexer.atLineStart lexeme, lexeme.rest⟩)

theorem next?_rest_length_lt {lexer after : Lexer} {item : LexicalItem}
    (h : lexer.next? = some (item, after)) : after.rest.length < lexer.rest.length := by
  unfold next? at h
  split at h
  · simp at h
  · rename_i c ahead hrest
    simp only [Option.some.injEq, Prod.mk.injEq] at h
    obtain ⟨-, rfl⟩ := h
    rw [hrest]
    exact Lexeme.rest_length_lt _ _ _

/-- All items that lie ahead. -/
def items (lexer : Lexer) : List LexicalItem :=
  match _h : lexer.next? with
  | none => []
  | some (item, after) => item :: after.items
termination_by lexer.rest.length
decreasing_by exact next?_rest_length_lt ‹_›

end Lexer

/-- The tokens and the errors of a source text, each in order. -/
structure TokenStream where
  tokens : List Token
  errors : List LexicalError
  deriving Repr, Inhabited

namespace TokenStream

def ofSource (source : String) : TokenStream :=
  let items := (Lexer.ofSource source).items
  ⟨items.filterMap LexicalItem.token?, items.filterMap LexicalItem.error?⟩

/-- The tokens that are not trivia. -/
def significant (stream : TokenStream) : List Token := stream.tokens.filter (!·.isTrivia)

end TokenStream

end CSharpStyle
