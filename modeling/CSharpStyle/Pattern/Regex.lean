import CSharpStyle.Pattern.CharSet

/-!
# Regular expressions

An expression maps the positions at which a match may begin to those at which it may end. A text is matched
when some position of it is mapped anywhere.
-/

namespace CSharpStyle

/-- A condition on the characters around a position. -/
inductive Anchor
  | textStart
  | textEnd
  | lineStart
  | lineEnd
  | wordBoundary
  | noWordBoundary
  | wordStart
  | wordEnd
  /-- No word character precedes. -/
  | outsideBefore
  /-- No word character follows. -/
  | outsideAfter
  deriving DecidableEq, Repr, Inhabited

inductive Regex
  | empty
  | set (s : CharSet)
  | anchor (a : Anchor)
  | seq (r s : Regex)
  | alt (r s : Regex)
  /-- At least `least` and, if there is a bound, at most `most` repetitions. -/
  | repeated (r : Regex) (least : Nat) (most : Option Nat)
  deriving Repr, Inhabited

namespace Anchor

def holds (a : Anchor) (text : Array Char) (i : Nat) : Bool :=
  let before := if i = 0 then none else text[i - 1]?
  let after := text[i]?
  let isWord (c : Option Char) := c.any Unicode.isWordCharacter
  match a with
  | textStart => i == 0
  | textEnd => i == text.size
  | lineStart => before.all (· == '\n')
  | lineEnd => after.all (· == '\n')
  | wordBoundary => isWord before != isWord after
  | noWordBoundary => isWord before == isWord after
  | wordStart => !isWord before && isWord after
  | wordEnd => isWord before && !isWord after
  | outsideBefore => !isWord before
  | outsideAfter => !isWord after

end Anchor

namespace Regex

/-- Applies `f` at most `n` times, until nothing changes. -/
def repeatMap (f : List Nat → List Nat) : Nat → List Nat → List Nat
  | 0, positions => positions
  | n + 1, positions =>
    let next := f positions
    if next == positions then positions else repeatMap f n next

/-- The positions of both lists, without repetitions when each has none. -/
def merge (positions more : List Nat) : List Nat :=
  positions ++ more.filter (!positions.contains ·)

/-- Adds what `f` reaches, at most `n` times, until nothing new is reached. -/
def closure (f : List Nat → List Nat) : Nat → List Nat → List Nat
  | 0, positions => positions
  | n + 1, positions =>
    let reached := merge positions (f positions)
    if reached.length == positions.length then positions else closure f n reached

/-- The positions at which matches that begin in `positions` end, without repetitions. -/
def advance (text : Array Char) : Regex → List Nat → List Nat
  | empty, positions => positions
  | set s, positions => positions.filterMap fun i => if text[i]?.any s.contains then some (i + 1) else none
  | anchor a, positions => positions.filter (a.holds text)
  | seq r s, positions => s.advance text (r.advance text positions)
  | alt r s, positions => merge (r.advance text positions) (s.advance text positions)
  | repeated r least most, positions =>
    let reached := repeatMap (r.advance text) least positions
    match most with
    | none => closure (r.advance text) (text.size + 1) reached
    | some most => closure (r.advance text) (most - least) reached

/-- Some part of the text matches. -/
def search (r : Regex) (text : String) : Bool :=
  let chars := text.toList.toArray
  !(r.advance chars (List.range (chars.size + 1))).isEmpty

end Regex

end CSharpStyle
