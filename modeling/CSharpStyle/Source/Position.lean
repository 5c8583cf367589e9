/-!
# Positions in a source text

A position counts the bytes of the UTF-8 encoding, the lines and the characters of the current line that come
before it. Every position of a text is reached from `Position.start` by reading the characters one by one.
-/

namespace CSharpStyle

/-- A place between two characters. Lines and columns count from one. -/
structure Position where
  offset : Nat
  line : Nat
  column : Nat
  deriving DecidableEq, Repr, Inhabited

namespace Position

/-- The position before the first character. -/
def start : Position := ⟨0, 1, 1⟩

/-- The position after reading `c`. -/
def next (p : Position) (c : Char) : Position :=
  if c = '\n' then ⟨p.offset + c.utf8Size, p.line + 1, 1⟩
  else ⟨p.offset + c.utf8Size, p.line, p.column + 1⟩

/-- The position after reading all of `cs`. -/
def advance (p : Position) (cs : List Char) : Position := cs.foldl next p

@[simp] theorem advance_nil (p : Position) : p.advance [] = p := rfl

theorem advance_append (p : Position) (cs ds : List Char) :
    p.advance (cs ++ ds) = (p.advance cs).advance ds := List.foldl_append

/-- The position as it is shown to a reader, `line:column`. -/
def text (p : Position) : String := s!"{p.line}:{p.column}"

end Position

/-- The piece of text between two positions. -/
structure Span where
  start : Position
  stop : Position
  deriving DecidableEq, Repr, Inhabited

end CSharpStyle
