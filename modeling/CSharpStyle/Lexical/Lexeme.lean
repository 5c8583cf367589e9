import CSharpStyle.Lexical.Nesting
import CSharpStyle.Lexical.Token
import CSharpStyle.Unicode.Numeric
import CSharpStyle.Unicode.Whitespace

/-!
# The lexeme at the head of a text

* `taken_append_rest` : the lexeme and what follows it make up the text;
* `taken_ne_nil` : a lexeme has at least one character.
-/

namespace CSharpStyle

/-- The first lexeme of a text, with what follows it. -/
structure Lexeme where
  taken : List Char
  rest : List Char
  kind : Except LexicalFault TokenKind

namespace Lexeme

/-- The longest beginning of `c :: ahead` that has `c` and otherwise only characters in `p`. -/
def run (kind : TokenKind) (p : Char → Bool) (c : Char) (ahead : List Char) : Lexeme :=
  ⟨c :: ahead.takeWhile p, ahead.dropWhile p, .ok kind⟩

/-- A lexeme that ends when everything it opens is closed. -/
def delimited (kind : TokenKind) (stack : List Opened) (text : List Char) : Lexeme :=
  let extent := Opened.read stack text
  ⟨extent.taken, extent.rest,
    match extent.fault with
    | none => .ok kind
    | some fault => .error fault⟩

def startsWithDigit (text : List Char) : Bool := text.head?.any Char.isDigit

/-- Whether `c` carries on a number whose last character is `previous`. A point or the sign of an exponent
needs a digit behind it. -/
def continuesNumber (hexadecimal : Bool) (previous c : Char) (ahead : List Char) : Bool :=
  c.isAlphanum || c == '_' || (c == '.' && startsWithDigit ahead) ||
    ((c == '+' || c == '-') && (previous == 'e' || previous == 'E') && !hexadecimal && startsWithDigit ahead)

/-- Splits a text where the number behind `previous` ends. -/
def splitNumber (hexadecimal : Bool) : Char → List Char → List Char × List Char
  | _, [] => ([], [])
  | previous, c :: ahead =>
    if continuesNumber hexadecimal previous c ahead then
      let (digits, rest) := splitNumber hexadecimal c ahead
      (c :: digits, rest)
    else ([], c :: ahead)

/-- A number starts with a digit, or with a point and a digit. -/
def number (c : Char) (ahead : List Char) : Lexeme :=
  let hexadecimal := c == '0' && (ahead.head? == some 'x' || ahead.head? == some 'X')
  let (digits, rest) := splitNumber hexadecimal c ahead
  ⟨c :: digits, rest, .ok .literal⟩

def startsIdentifier (c : Char) : Bool := Unicode.isAlphabetic c || c == '_'

def continuesIdentifier (c : Char) : Bool := Unicode.isAlphanumeric c || c == '_'

def wordKind (word : String) : TokenKind :=
  if Keyword.isLiteral word then .literal
  else if Keyword.isKeyword word then .keyword
  else .identifier

def word (c : Char) (ahead : List Char) : Lexeme :=
  let letters := c :: ahead.takeWhile continuesIdentifier
  ⟨letters, ahead.dropWhile continuesIdentifier, .ok (wordKind (String.ofList letters))⟩

/-- Operators of several characters, the longer first. Two `>` are never joined: they may close two type
argument lists. -/
def operators : List (List Char) :=
  ["??=", "<<=", "&&", "||", "??", "?.", "=>", "==", "!=", "<=", ">=", "+=", "-=", "*=", "/=", "%=", "&=",
   "|=", "^=", "++", "--", "::", "->", "<<", ".."].map String.toList

def marks : List Char := "\x7b\x7d()[];,.:?+-*/%&|^!~=<>".toList

def punctuation (c : Char) (ahead : List Char) : Lexeme :=
  match operators.find? (·.isPrefixOf (c :: ahead)) with
  | some operator =>
    ⟨c :: ahead.take (operator.length - 1), ahead.drop (operator.length - 1), .ok .punctuation⟩
  | none => ⟨[c], ahead, if marks.contains c then .ok .punctuation else .error (.unexpectedCharacter c)⟩

/-- What a run of three or more quotes at the head of the text opens, or else `otherwise`. -/
def openingQuotes (text : List Char) (otherwise : List Opened) : List Opened :=
  let quotes := (text.takeWhile (· == '"')).length
  if 3 ≤ quotes then List.replicate quotes .anyCharacter ++ [.rawString quotes 0] else otherwise

/-- What an interpolated string opens: behind its marks `$` and `@` there is a quote. -/
def openingInterpolated (text : List Char) : List Opened :=
  let isSigil (c : Char) := c == '$' || c == '@'
  let sigils := text.takeWhile isSigil
  let body := text.dropWhile isSigil
  List.replicate sigils.length .anyCharacter ++
    openingQuotes body (List.replicate (body.take 1).length .anyCharacter ++
      [.interpolatedString (sigils.contains '@')])

/-- What the string, character literal or block comment at the head of a text opens. -/
def opening? : List Char → Option (TokenKind × List Opened)
  | '/' :: '*' :: _ => some (.comment, [.anyCharacter, .anyCharacter, .blockComment])
  | '"' :: ahead => some (.literal, openingQuotes ('"' :: ahead) [.anyCharacter, .regularString])
  | '@' :: '"' :: _ => some (.literal, [.anyCharacter, .anyCharacter, .verbatimString])
  | '@' :: '$' :: ahead => some (.literal, openingInterpolated ('@' :: '$' :: ahead))
  | '$' :: '"' :: ahead => some (.literal, openingInterpolated ('$' :: '"' :: ahead))
  | '$' :: '@' :: ahead => some (.literal, openingInterpolated ('$' :: '@' :: ahead))
  | '$' :: '$' :: ahead => some (.literal, openingInterpolated ('$' :: '$' :: ahead))
  | '\'' :: ahead => some (.literal, .anyCharacter :: Opened.characterBody ahead)
  | _ => none

def isLineEnd (c : Char) : Bool := c == '\n'

/-- The lexeme at the head of `c :: ahead`. A directive has to be the first on its line. -/
def ofText (atLineStart : Bool) (c : Char) (ahead : List Char) : Lexeme :=
  if Unicode.isWhitespace c then run .whitespace Unicode.isWhitespace c ahead
  else if c == '/' && ahead.head? == some '/' then run .comment (!isLineEnd ·) c ahead
  else if c == '#' && atLineStart then run .directive (!isLineEnd ·) c ahead
  else
    match opening? (c :: ahead) with
    | some (kind, stack) => delimited kind stack (c :: ahead)
    | none =>
      if c == '@' && ahead.head?.any startsIdentifier then run .identifier continuesIdentifier c ahead
      else if c.isDigit || (c == '.' && startsWithDigit ahead) then number c ahead
      else if startsIdentifier c then word c ahead
      else punctuation c ahead

theorem splitNumber_append (hexadecimal : Bool) (previous : Char) (text : List Char) :
    (splitNumber hexadecimal previous text).1 ++ (splitNumber hexadecimal previous text).2 = text := by
  fun_induction splitNumber hexadecimal previous text with
  | case1 | case3 => rfl
  | case2 _ _ _ _ _ _ h ih => rw [h] at ih; simpa using ih

theorem read_taken_ne_nil (stack : List Opened) (c : Char) (ahead : List Char) :
    (Opened.read (.anyCharacter :: stack) (c :: ahead)).taken ≠ [] := by
  simp [Opened.read, Opened.step, Extent.cons]

/-- Every opening consumes its first character whatever it is. -/
theorem opening?_eq_some {text : List Char} {kind : TokenKind} {stack : List Opened}
    (h : opening? text = some (kind, stack)) : ∃ outer, stack = .anyCharacter :: outer := by
  unfold opening? at h
  split at h <;> simp only [Option.some.injEq, Prod.mk.injEq, reduceCtorEq] at h <;> obtain ⟨rfl, rfl⟩ := h
  case h_2 =>
    simp only [openingQuotes, List.takeWhile_cons, beq_self_eq_true, ↓reduceIte, List.length_cons,
      List.replicate_succ]
    split <;> exact ⟨_, rfl⟩
  all_goals simp [openingInterpolated, List.replicate_succ]

theorem taken_append_rest (atLineStart : Bool) (c : Char) (ahead : List Char) :
    (ofText atLineStart c ahead).taken ++ (ofText atLineStart c ahead).rest = c :: ahead := by
  unfold ofText
  split
  · simp [run]
  split
  · simp [run]
  split
  · simp [run]
  split
  · exact Opened.read_append _ _
  split
  · simp [run]
  split
  · simp [number, splitNumber_append]
  split
  · simp [word]
  · unfold punctuation; split <;> simp

theorem taken_ne_nil (atLineStart : Bool) (c : Char) (ahead : List Char) :
    (ofText atLineStart c ahead).taken ≠ [] := by
  unfold ofText
  split
  · simp [run]
  split
  · simp [run]
  split
  · simp [run]
  split
  · rename_i h
    obtain ⟨outer, rfl⟩ := opening?_eq_some h
    exact read_taken_ne_nil _ _ _
  split
  · simp [run]
  split
  · simp [number]
  split
  · simp [word]
  · unfold punctuation; split <;> simp

theorem rest_length_lt (atLineStart : Bool) (c : Char) (ahead : List Char) :
    (ofText atLineStart c ahead).rest.length < (c :: ahead).length := by
  have split := congrArg List.length (taken_append_rest atLineStart c ahead)
  have positive := List.length_pos_iff.mpr (taken_ne_nil atLineStart c ahead)
  rw [List.length_append] at split
  omega

end Lexeme

end CSharpStyle
