import CSharpStyle.Lexical.Token

/-!
# Delimited lexemes

Strings, character literals and block comments end at a closing delimiter, and an interpolated string holds
expressions that hold strings again. One pushdown automaton reads them all. Its stack lists what is still
open, innermost first; each character either is refused or is consumed and replaces the innermost entry.
Looking ahead decides what an entry turns into and consumes nothing.

* `read_append` : the characters consumed and the characters left make up the text.
-/

namespace CSharpStyle

/-- Something that has been opened and has to be closed. -/
inductive Opened
  /-- One character is consumed, whichever it is. -/
  | anyCharacter
  /-- A string whose escapes begin with a backslash and that ends on its line. -/
  | regularString
  /-- A string in which only the doubled quote is an escape. -/
  | verbatimString
  /-- A string closed by at least `quotes` quotes in a row, of which `seen` have just been read. -/
  | rawString (quotes seen : Nat)
  /-- The text of an interpolated string. -/
  | interpolatedString (verbatim : Bool)
  /-- A brace inside an interpolated string, around an expression. -/
  | brace
  | characterLiteral
  | blockComment
  deriving DecidableEq, Repr, Inhabited

namespace Opened

/-- The fault of a text that ends while this is open. -/
def faultAtEnd : Opened → LexicalFault
  | characterLiteral => .unterminatedCharacter
  | blockComment => .unterminatedComment
  | _ => .unterminatedString

/-- What a backslash leaves open: it takes the next character with it unless the line ends. -/
def escaping (string : Opened) : List Char → List Opened
  | c :: _ => if c = '\n' then [string] else [anyCharacter, string]
  | [] => [string]

/-- What is open after the quote of a character literal: an escape may stand first. -/
def characterBody : List Char → List Opened
  | '\\' :: _ :: _ => [anyCharacter, anyCharacter, characterLiteral]
  | _ => [characterLiteral]

/-- What the quote of a string leaves open in front of `ahead` when the doubled quote is an escape. -/
def unlessDoubled (string : Opened) : List Char → List Opened
  | '"' :: _ => [anyCharacter, string]
  | _ => []

/-- What `c` turns the entry into when `ahead` follows, or why it cannot be consumed. -/
def step : Opened → Char → List Char → Except LexicalFault (List Opened)
  | anyCharacter, _, _ => .ok []
  | regularString, c, ahead =>
    match c with
    | '\n' => .error .unterminatedString
    | '\\' => .ok (escaping regularString ahead)
    | '"' => .ok []
    | _ => .ok [regularString]
  | verbatimString, c, ahead =>
    .ok (if c = '"' then unlessDoubled verbatimString ahead else [verbatimString])
  | rawString quotes seen, c, ahead =>
    if c = '"' then
      if quotes ≤ seen + 1 ∧ ahead.head? ≠ some '"' then .ok [] else .ok [rawString quotes (seen + 1)]
    else .ok [rawString quotes 0]
  | interpolatedString verbatim, c, ahead =>
    match c, ahead with
    | '\n', _ => if verbatim then .ok [interpolatedString verbatim] else .error .unterminatedString
    | '\\', _ =>
      .ok (if verbatim then [interpolatedString verbatim] else escaping (interpolatedString verbatim) ahead)
    | '"', _ => .ok (if verbatim then unlessDoubled (interpolatedString verbatim) ahead else [])
    | '\x7b', '\x7b' :: _ => .ok [anyCharacter, interpolatedString verbatim]
    | '\x7b', _ => .ok [brace, interpolatedString verbatim]
    | _, _ => .ok [interpolatedString verbatim]
  | brace, c, ahead =>
    match c, ahead with
    | '\x7b', _ => .ok [brace, brace]
    | '\x7d', _ => .ok []
    | '"', _ => .ok [regularString, brace]
    | '@', '"' :: _ => .ok [anyCharacter, verbatimString, brace]
    | '$', '"' :: _ => .ok [anyCharacter, interpolatedString false, brace]
    | '$', '@' :: '"' :: _ => .ok [anyCharacter, anyCharacter, interpolatedString true, brace]
    | '\'', _ => .ok (characterBody ahead ++ [brace])
    | _, _ => .ok [brace]
  | characterLiteral, c, _ =>
    match c with
    | '\n' => .error .unterminatedCharacter
    | '\'' => .ok []
    | _ => .ok [characterLiteral]
  | blockComment, c, ahead =>
    match c, ahead with
    | '*', '/' :: _ => .ok [anyCharacter]
    | _, _ => .ok [blockComment]

end Opened

/-- A piece of text that was read, what follows it, and the fault that ended it early. -/
structure Extent where
  taken : List Char
  rest : List Char
  fault : Option LexicalFault := none
  deriving DecidableEq, Repr, Inhabited

def Extent.cons (c : Char) (e : Extent) : Extent := { e with taken := c :: e.taken }

/-- Reads until everything that was open is closed. -/
def Opened.read : List Opened → List Char → Extent
  | [], text => ⟨[], text, none⟩
  | innermost :: _, [] => ⟨[], [], some innermost.faultAtEnd⟩
  | innermost :: outer, c :: ahead =>
    match innermost.step c ahead with
    | .error fault => ⟨[], c :: ahead, some fault⟩
    | .ok opened => (read (opened ++ outer) ahead).cons c

theorem Opened.read_append (stack : List Opened) (text : List Char) :
    (read stack text).taken ++ (read stack text).rest = text := by
  fun_induction read stack text with
  | case1 | case2 | case3 => rfl
  | case4 _ _ c _ _ _ ih => simp [Extent.cons, ih]

end CSharpStyle
