import CSharpStyle.Unicode.Whitespace

/-!
# Lines of a text

A line ends with a newline or with a carriage return and a newline. What follows the last line end is a line
unless it is empty.
-/

namespace CSharpStyle

/-- The pieces between newlines, at least one. -/
def splitAtNewlines : List Char → List (List Char)
  | [] => [[]]
  | c :: rest =>
    if c = '\n' then [] :: splitAtNewlines rest
    else
      match splitAtNewlines rest with
      | [] => [[c]]
      | line :: lines => (c :: line) :: lines

/-- A line without the carriage return of its line end. -/
def withoutCarriageReturn (line : List Char) : List Char :=
  if line.getLast? = some '\r' then line.dropLast else line

/-- The lines of a text. -/
def linesOf (text : List Char) : List (List Char) :=
  let pieces := splitAtNewlines text
  let ended := pieces.dropLast.map withoutCarriageReturn
  match pieces.getLast? with
  | some [] => ended
  | some last => ended ++ [last]
  | none => ended

/-- The text without white space at its ends. -/
def trimmed (text : List Char) : List Char :=
  ((text.dropWhile Unicode.isWhitespace).reverse.dropWhile Unicode.isWhitespace).reverse

/-- All lines of a source text, trimmed. -/
def trimmedLines (source : String) : Array String :=
  ((linesOf source.toList).map fun line => String.ofList (trimmed line)).toArray

end CSharpStyle
