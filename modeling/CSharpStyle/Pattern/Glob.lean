import CSharpStyle.Source.Path

/-!
# Glob patterns

`*` and `?` match any characters, separators included; `[…]` and `[!…]` match one character; `**` as a whole
component matches any number of whole components.

* A pattern is refused at the position of the offending character.
-/

namespace CSharpStyle

/-- A single character or a range in a class. -/
structure GlobRange where
  first : Char
  last : Char
  deriving DecidableEq, Repr, Inhabited

inductive GlobToken
  | literal (c : Char)
  | anyCharacter
  | anySequence
  | anyComponents
  | within (ranges : List GlobRange)
  | outside (ranges : List GlobRange)
  deriving DecidableEq, Repr, Inhabited

abbrev Glob := List GlobToken

inductive GlobFault
  | tooManyStars
  | notAComponent
  | invalidRange
  deriving DecidableEq, Repr, Inhabited

/-- A fault and the number of characters in front of it. -/
structure GlobError where
  fault : GlobFault
  position : Nat
  deriving DecidableEq, Repr, Inhabited

def GlobFault.message : GlobFault → String
  | tooManyStars => "wildcards are either regular \x60*\x60 or recursive \x60**\x60"
  | notAComponent => "recursive wildcards must form a single path component"
  | invalidRange => "invalid range pattern"

def GlobError.message (e : GlobError) : String :=
  s!"Pattern syntax error near position {e.position}: {e.fault.message}"

namespace Glob

/-- The ranges of a class. A sign `-` between two characters makes a range. -/
def rangesOf : List Char → List GlobRange
  | first :: '-' :: last :: rest => ⟨first, last⟩ :: rangesOf rest
  | c :: rest => ⟨c, c⟩ :: rangesOf rest
  | [] => []

/-- Splits a class at the bracket that closes it, which cannot be its first character. -/
def closeClass? : List Char → Option (List Char × List Char)
  | [] => none
  | first :: rest =>
    match rest.dropWhile (· != ']') with
    | _ :: behind => some (first :: rest.takeWhile (· != ']'), behind)
    | [] => none

/-- Adds the component wildcard, unless one was just added. -/
def addComponents (tokens : List GlobToken) : List GlobToken :=
  if tokens.head? == some .anyComponents then tokens else .anyComponents :: tokens

/-- Reads a pattern from its character number `i` on, behind `previous`. The tokens read so far come last
first, and at most `n` more are read. -/
def readFrom : Nat → Nat → Option Char → List GlobToken → List Char → Except GlobError Glob
  | 0, _, _, tokens, _ => .ok tokens.reverse
  | _, _, _, tokens, [] => .ok tokens.reverse
  | n + 1, i, previous, tokens, c :: rest =>
    match c with
    | '?' => readFrom n (i + 1) (some c) (.anyCharacter :: tokens) rest
    | '*' =>
      let stars := 1 + (rest.takeWhile (· == '*')).length
      let behind := rest.dropWhile (· == '*')
      if 2 < stars then .error ⟨.tooManyStars, i + 2⟩
      else if stars = 1 then readFrom n (i + 1) (some c) (.anySequence :: tokens) rest
      else if previous = none ∨ previous = some '/' then
        match behind with
        | [] => .ok (addComponents tokens).reverse
        | '/' :: behind => readFrom n (i + 3) (some '/') (addComponents tokens) behind
        | _ => .error ⟨.notAComponent, i + 2⟩
      else .error ⟨.notAComponent, i - 1⟩
    | '[' =>
      let (isNegated, inner) :=
        match rest with
        | '!' :: inner => (true, inner)
        | _ => (false, rest)
      match closeClass? inner with
      | none => .error ⟨.invalidRange, i⟩
      | some (members, behind) =>
        let token : GlobToken := if isNegated then .outside (rangesOf members) else .within (rangesOf members)
        let width := members.length + (if isNegated then 3 else 2)
        readFrom n (i + width) (some ']') (token :: tokens) behind
    | _ => readFrom n (i + 1) (some c) (.literal c :: tokens) rest

def parse (text : String) : Except GlobError Glob :=
  readFrom text.length 0 none [] text.toList

def inRanges (ranges : List GlobRange) (c : Char) : Bool :=
  ranges.any fun r => r.first ≤ c && c ≤ r.last

/-- Some rest of the text that `next` accepts, behind any characters. -/
def somewhere (next : List Char → Bool) : List Char → Bool
  | [] => next []
  | c :: rest => next (c :: rest) || somewhere next rest

/-- Some rest of the text that `next` accepts, behind any whole components. -/
def behindComponents (next : List Char → Bool) : List Char → Bool
  | [] => false
  | c :: rest => (c == '/' && next rest) || behindComponents next rest

/-- The whole text matches. -/
def accepts : Glob → List Char → Bool
  | [], text => text.isEmpty
  | .literal c :: pattern, text =>
    match text with
    | d :: rest => c == d && accepts pattern rest
    | [] => false
  | .anyCharacter :: pattern, text =>
    match text with
    | _ :: rest => accepts pattern rest
    | [] => false
  | .within ranges :: pattern, text =>
    match text with
    | d :: rest => inRanges ranges d && accepts pattern rest
    | [] => false
  | .outside ranges :: pattern, text =>
    match text with
    | d :: rest => !inRanges ranges d && accepts pattern rest
    | [] => false
  | .anySequence :: pattern, text => somewhere (accepts pattern) text
  | .anyComponents :: pattern, text =>
    accepts pattern text || behindComponents (accepts pattern) text || (pattern.isEmpty)

def matchesText (pattern : Glob) (text : String) : Bool := accepts pattern text.toList

end Glob

end CSharpStyle
