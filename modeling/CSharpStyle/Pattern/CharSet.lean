import CSharpStyle.Unicode.CaseFolding
import CSharpStyle.Unicode.Whitespace
import CSharpStyle.Unicode.WordCharacter

/-!
# Character sets

The sets that a pattern can name for a single character.
-/

namespace CSharpStyle

inductive CharSet
  | none
  | range (first last : Char)
  | digit
  | space
  | word
  | complement (s : CharSet)
  | union (s t : CharSet)
  | intersection (s t : CharSet)
  | difference (s t : CharSet)
  | symmetricDifference (s t : CharSet)
  /-- All characters that are equal up to case to one in the set. -/
  | caseless (s : CharSet)
  deriving DecidableEq, Repr, Inhabited

namespace CharSet

def singleton (c : Char) : CharSet := range c c

def contains : CharSet → Char → Bool
  | none, _ => false
  | range first last, c => first ≤ c && c ≤ last
  | digit, c => Unicode.isDecimalDigit c
  | space, c => Unicode.isWhitespace c
  | word, c => Unicode.isWordCharacter c
  | complement s, c => !s.contains c
  | union s t, c => s.contains c || t.contains c
  | intersection s t, c => s.contains c && t.contains c
  | difference s t, c => s.contains c && !t.contains c
  | symmetricDifference s t, c => s.contains c != t.contains c
  | caseless s, c => s.contains c || (Unicode.caseVariants c.toNat).any fun n => s.contains (Char.ofNat n)

end CharSet

end CSharpStyle
