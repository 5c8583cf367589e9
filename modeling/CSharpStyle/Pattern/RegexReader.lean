import CSharpStyle.Pattern.Regex

/-!
# Reading regular expressions

Literals, `.`, classes in brackets, the classes `\d`, `\s`, `\w` and their complements, anchors, groups,
alternatives, repetitions and the flags `i`, `m`, `s`, `u` and `U`. A text that is none of these denotes nothing.
Look-around and back-references are refused.

An expression whose expansion is too large is refused as well (`Regex.maxWeight`).

Character properties, named groups and the flags `x` and `R` are not read. Settings and naming rules take any reader of
patterns that reads the built-in ones, and this is the one that they take if none is given.
-/

namespace CSharpStyle

/-- The flags in force at some place of an expression. -/
structure RegexFlags where
  caseless : Bool := false
  multiline : Bool := false
  dotMatchesNewline : Bool := false
  deriving DecidableEq, Repr, Inhabited

namespace RegexReader

/-- What is read and what follows it. -/
abbrev Result (α : Type) := Option (α × List Char)

/-- Punctuation may be escaped, letters and digits have meanings of their own. -/
def isEscapable (c : Char) : Bool :=
  c.toNat < 0x80 && !c.isAlphanum && c != '<' && c != '>'

/-- The character that a letter behind a backslash stands for. -/
def controlEscape? : Char → Option Char
  | 'a' => some '\x07'
  | 'f' => some '\x0c'
  | 't' => some '\t'
  | 'n' => some '\n'
  | 'r' => some '\r'
  | 'v' => some '\x0b'
  | _ => none

/-- The class that a letter behind a backslash stands for. -/
def classEscape? : Char → Option CharSet
  | 'd' => some .digit
  | 'D' => some (.complement .digit)
  | 's' => some .space
  | 'S' => some (.complement .space)
  | 'w' => some .word
  | 'W' => some (.complement .word)
  | _ => none

/-- The text without `start`, if it begins with it. -/
def behind? (start : String) (text : List Char) : Option (List Char) :=
  if start.toList.isPrefixOf text then some (text.drop start.length) else none

/-- The kinds of word boundaries that are named behind `\b`. -/
def namedBoundaries : List (String × Anchor) :=
  [("\x7bstart\x7d", .wordStart), ("\x7bend\x7d", .wordEnd), ("\x7bstart-half\x7d", .outsideBefore),
   ("\x7bend-half\x7d", .outsideAfter)]

/-- The anchor that an escape stands for; the text begins behind the backslash. -/
def anchorEscape? : List Char → Result Anchor
  | 'A' :: rest => some (.textStart, rest)
  | 'z' :: rest => some (.textEnd, rest)
  | 'B' :: rest => some (.noWordBoundary, rest)
  | '<' :: rest => some (.wordStart, rest)
  | '>' :: rest => some (.wordEnd, rest)
  | 'b' :: rest =>
    some ((namedBoundaries.findSome? fun (name, anchor) => (behind? name rest).map (anchor, ·)).getD
      (.wordBoundary, rest))
  | _ => none

def hexDigit? (c : Char) : Option Nat :=
  if c.isDigit then some (c.toNat - '0'.toNat)
  else if 'a' ≤ c && c ≤ 'f' then some (c.toNat - 'a'.toNat + 10)
  else if 'A' ≤ c && c ≤ 'F' then some (c.toNat - 'A'.toNat + 10)
  else none

def hexValue? (digits : List Char) : Option Nat :=
  if digits.isEmpty then none
  else digits.foldlM (fun n c => (hexDigit? c).map (16 * n + ·)) 0

def codePoint? (n : Nat) : Option Char := if n.isValidChar then some (Char.ofNat n) else none

/-- The character written by code point behind `\x`, `\u` or `\U`, which take `width` digits, or any number of
them in braces. -/
def hexEscape? (width : Nat) : List Char → Result Char
  | '\x7b' :: rest =>
    match rest.dropWhile (· != '\x7d') with
    | _ :: behind => ((hexValue? (rest.takeWhile (· != '\x7d'))).bind codePoint?).map fun c => (c, behind)
    | [] => none
  | text =>
    if (text.take width).length = width then
      ((hexValue? (text.take width)).bind codePoint?).map fun c => (c, text.drop width)
    else none

/-- The character that an escape stands for; the text begins behind the backslash. -/
def literalEscape? : List Char → Result Char
  | 'x' :: rest => hexEscape? 2 rest
  | 'u' :: rest => hexEscape? 4 rest
  | 'U' :: rest => hexEscape? 8 rest
  | c :: rest =>
    if isEscapable c then some (c, rest) else (controlEscape? c).map fun literal => (literal, rest)
  | [] => none

/-! ## Classes in brackets -/

/-- An element of a class: a character, which may begin a range, or a class of its own. -/
inductive ClassItem
  | literal (c : Char)
  | group (s : CharSet)

def ClassItem.set : ClassItem → CharSet
  | literal c => .singleton c
  | group s => s

def classItem? : List Char → Result ClassItem
  | '\\' :: text =>
    match text with
    | c :: rest =>
      match classEscape? c with
      | some s => some (.group s, rest)
      | none => (literalEscape? text).map fun (literal, rest) => (.literal literal, rest)
    | [] => none
  | c :: rest => some (.literal c, rest)
  | [] => none

/-- An element or a range, whose ends must be characters in order. -/
def classRange? (text : List Char) : Result CharSet :=
  match classItem? text with
  | none => none
  | some (item, rest) =>
    match rest with
    | '-' :: next :: more =>
      if next = ']' ∨ next = '-' then some (item.set, rest)
      else
        match item, classItem? (next :: more) with
        | .literal first, some (.literal last, behind) =>
          if first ≤ last then some (.range first last, behind) else none
        | _, _ => none
    | _ => some (item.set, rest)

/-- The ASCII classes that `[:name:]` stands for. -/
def namedClass? (name : List Char) : Option CharSet :=
  let range (a b : Char) := CharSet.range a b
  let alpha := (range 'a' 'z').union (range 'A' 'Z')
  match String.ofList name with
  | "alnum" => some (alpha.union (range '0' '9'))
  | "alpha" => some alpha
  | "ascii" => some (range '\x00' '\x7f')
  | "blank" => some ((range '\t' '\t').union (range ' ' ' '))
  | "cntrl" => some ((range '\x00' '\x1f').union (range '\x7f' '\x7f'))
  | "digit" => some (range '0' '9')
  | "graph" => some (range '!' '~')
  | "lower" => some (range 'a' 'z')
  | "print" => some (range ' ' '~')
  | "punct" =>
    some ((range '!' '/').union ((range ':' '@').union ((range '[' '\x60').union (range '\x7b' '~'))))
  | "space" => some ((range '\t' '\r').union (range ' ' ' '))
  | "upper" => some (range 'A' 'Z')
  | "word" => some (alpha.union ((range '0' '9').union (range '_' '_')))
  | "xdigit" => some ((range '0' '9').union ((range 'a' 'f').union (range 'A' 'F')))
  | _ => none

/-- Reads `[:name:]` or `[:^name:]`; the text begins behind its bracket. -/
def asciiClass? : List Char → Result CharSet
  | ':' :: text =>
    let negated := text.head? == some '^'
    let text := if negated then text.tail else text
    match text.dropWhile (· != ':') with
    | ':' :: ']' :: rest =>
      (namedClass? (text.takeWhile (· != ':'))).map fun s => (if negated then .complement s else s, rest)
    | _ => none
  | _ => none

/-- How two operands of a class are combined. -/
abbrev Combine := CharSet → CharSet → CharSet

/-- A set under the flags. -/
def fold (flags : RegexFlags) (s : CharSet) : CharSet := if flags.caseless then .caseless s else s

/-- The rest of a class up to its bracket. The elements read so far are `items`, and `finish` combines them
with the operands before. At most `n` elements are read; `nested` reads a class inside. -/
def classItems (flags : RegexFlags) (nested : List Char → Result CharSet) (finish : CharSet → CharSet) :
    Nat → CharSet → List Char → Result CharSet
  | 0, _, _ => none
  | n + 1, items, text =>
    let operator (combine : Combine) (rest : List Char) :=
      classItems flags nested (fun operand => combine (finish items) (fold flags operand)) n .none rest
    match text with
    | [] => none
    | ']' :: rest => some (finish items, rest)
    | '&' :: '&' :: rest => operator .intersection rest
    | '-' :: '-' :: rest => operator .difference rest
    | '~' :: '~' :: rest => operator .symmetricDifference rest
    | '[' :: rest =>
      match (asciiClass? rest).or (nested rest) with
      | some (s, rest) => classItems flags nested finish n (items.union s) rest
      | none => none
    | text =>
      match classRange? text with
      | some (s, rest) => classItems flags nested finish n (items.union s) rest
      | none => none

/-- Reads a class behind its bracket, with classes nested less than `n` deep. Signs `-` at the beginning and a
`]` in first place are elements. -/
def bracketed (flags : RegexFlags) : Nat → List Char → Result CharSet
  | 0, _ => none
  | n + 1, text =>
    let negated := text.head? == some '^'
    let text := if negated then text.tail else text
    let dashes := text.takeWhile (· == '-')
    let text := text.dropWhile (· == '-')
    let start : CharSet := if dashes.isEmpty then .none else .singleton '-'
    let (start, text) :=
      if dashes.isEmpty && text.head? == some ']' then (.singleton ']', text.tail) else (start, text)
    match classItems flags (bracketed flags n) (fold flags) (text.length + 1) start text with
    | none => none
    | some (s, rest) => some (if negated then .complement s else s, rest)

/-! ## Repetitions -/

/-- A decimal number below `2 ^ 32` with blanks around it. -/
def count? (text : List Char) : Option Nat × List Char :=
  let text := text.dropWhile Unicode.isWhitespace
  let digits := text.takeWhile Char.isDigit
  let rest := (text.dropWhile Char.isDigit).dropWhile Unicode.isWhitespace
  let value := digits.foldl (fun n c => 10 * n + (c.toNat - '0'.toNat)) 0
  (if digits.isEmpty || UInt32.size ≤ value then none else some value, rest)

/-- A repetition without its question mark, which changes no answer. -/
def withoutLaziness : List Char → List Char
  | '?' :: rest => rest
  | rest => rest

/-- Reads a counted repetition behind its brace. -/
def counted? (text : List Char) : Result (Nat × Option Nat) :=
  match count? text with
  | (some least, '\x7d' :: rest) => some ((least, some least), withoutLaziness rest)
  | (some least, ',' :: '\x7d' :: rest) => some ((least, none), withoutLaziness rest)
  | (some least, ',' :: rest) =>
    match count? rest with
    | (some most, '\x7d' :: rest) =>
      if least ≤ most then some ((least, some most), withoutLaziness rest) else none
    | _ => none
  | _ => none

/-- Reads a repetition mark. -/
def repetition? : List Char → Result (Nat × Option Nat)
  | '*' :: rest => some ((0, none), withoutLaziness rest)
  | '+' :: rest => some ((1, none), withoutLaziness rest)
  | '?' :: rest => some ((0, some 1), withoutLaziness rest)
  | '\x7b' :: rest => counted? rest
  | _ => none

def isRepetitionMark (c : Char) : Bool := c == '*' || c == '+' || c == '?' || c == '\x7b'

/-! ## Flags -/

/-- Reads flags up to `)` or `:`. Each may be named once, and one sign `-` clears those behind it. -/
def flags? (flags : RegexFlags) (clearing : Bool) (seen : List Char) : List Char → Result RegexFlags
  | [] => none
  | c :: rest =>
    if c == ')' || c == ':' then
      if seen.head? == some '-' then none else some (flags, c :: rest)
    else if seen.contains c then none
    else
      let value := !clearing
      match c with
      | '-' => flags? flags true (c :: seen) rest
      | 'i' => flags? { flags with caseless := value } clearing (c :: seen) rest
      | 'm' => flags? { flags with multiline := value } clearing (c :: seen) rest
      | 's' => flags? { flags with dotMatchesNewline := value } clearing (c :: seen) rest
      | 'U' => flags? flags clearing (c :: seen) rest
      | 'u' => if clearing then none else flags? flags clearing (c :: seen) rest
      | _ => none

/-! ## Expressions -/

/-- The single character `c` under the given flags. -/
def literal (flags : RegexFlags) (c : Char) : Regex :=
  .set (fold flags (.singleton c))

def anyCharacter (flags : RegexFlags) : Regex :=
  .set (.complement (if flags.dotMatchesNewline then .none else .singleton '\n'))

/-- Reads an atom that is not a group. -/
def atom? (flags : RegexFlags) : List Char → Result Regex
  | [] => none
  | '\\' :: text =>
    match text with
    | [] => none
    | c :: rest =>
      match classEscape? c, anchorEscape? text with
      | some s, _ => some (.set s, rest)
      | none, some (a, rest) => some (.anchor a, rest)
      | none, none => (literalEscape? text).map fun (c, rest) => (literal flags c, rest)
  | '.' :: rest => some (anyCharacter flags, rest)
  | '^' :: rest => some (.anchor (if flags.multiline then .lineStart else .textStart), rest)
  | '$' :: rest => some (.anchor (if flags.multiline then .lineEnd else .textEnd), rest)
  | '[' :: rest => (bracketed flags (rest.length + 1) rest).map fun (s, rest) => (.set s, rest)
  | c :: rest => if isRepetitionMark c then none else some (literal flags c, rest)

/-- Reads alternatives under some flags, up to the end or an unopened `)`. -/
abbrev Reader := RegexFlags → List Char → Result Regex

/-- A group: its expression, or the flags that it sets for what follows. -/
inductive Group
  | expression (r : Regex)
  | flags (f : RegexFlags)

/-- Reads a group behind its parenthesis. -/
def group? (alternatives : Reader) (flags : RegexFlags) (text : List Char) : Result Group :=
  let inside (flags : RegexFlags) (text : List Char) : Result Group :=
    match alternatives flags text with
    | some (r, ')' :: rest) => some (.expression r, rest)
    | _ => none
  match text with
  | '?' :: text =>
    match flags? flags false [] text with
    | some (inner, ':' :: rest) => inside inner rest
    | some (inner, _ :: rest) => if text.head? == some ')' then none else some (.flags inner, rest)
    | _ => none
  | text => inside flags text

/-- What has been read of a sequence: the expression, and its last atom, to which a repetition applies. -/
structure Sequence where
  before : Regex := .empty
  last : Option Regex := none

namespace Sequence

def regex (s : Sequence) : Regex :=
  match s.last with
  | some r => .seq s.before r
  | none => s.before

def push (s : Sequence) (r : Regex) : Sequence := ⟨s.regex, some r⟩

end Sequence

/-- Reads alternatives: `whole` holds those before the current sequence. At most `n` atoms are read, and
`nested` reads the inside of a group. -/
def alternatives (nested : Reader) (whole : Regex → Regex) (flags : RegexFlags) :
    Nat → Sequence → List Char → Result Regex
  | 0, _, _ => none
  | n + 1, sequence, text =>
    match text with
    | [] => some (whole sequence.regex, [])
    | c :: rest =>
      if c == ')' then some (whole sequence.regex, text)
      else if c == '|' then alternatives nested (.alt (whole sequence.regex)) flags n {} rest
      else if c == '(' then
        match group? nested flags rest with
        | none => none
        | some (.expression r, rest) => alternatives nested whole flags n (sequence.push r) rest
        | some (.flags inner, rest) => alternatives nested whole inner n ⟨sequence.regex, none⟩ rest
      else if isRepetitionMark c then
        match sequence.last, repetition? text with
        | some r, some ((least, most), rest) =>
          alternatives nested whole flags n ⟨sequence.before, some (.repeated r least most)⟩ rest
        | _, _ => none
      else
        match atom? flags text with
        | some (r, rest) => alternatives nested whole flags n (sequence.push r) rest
        | none => none

/-- Reads alternatives with groups nested less than `n` deep. -/
def nestedReader : Nat → Reader
  | 0, _, _ => none
  | n + 1, flags, text => alternatives (nestedReader n) id flags (text.length + 1) {} text

end RegexReader

namespace Regex

/-- A measure for the room that an expanded expression takes, in bytes. -/
def weight : Regex → Nat
  | empty => 32
  | set s =>
    match s with
    | .range _ _ => 32
    | .digit => 2000
    | .space => 500
    | .word => 45000
    | .complement .word => 45000
    | _ => 300
  | anchor _ => 32
  | seq r s => r.weight + s.weight
  | alt r s => r.weight + s.weight + 36
  | repeated r least none => (least + 1) * r.weight + 36
  | repeated r least (some most) => least * r.weight + (most - least) * (r.weight + 36)

/-- Expressions above this weight are refused. -/
def maxWeight : Nat := 10 * 1024 * 1024

/-- Groups may be nested this deep. -/
def maxDepth : Nat := 250

/-- The expression that a text denotes, if it denotes one. -/
def parse? (text : String) : Option Regex :=
  match RegexReader.nestedReader maxDepth {} text.toList with
  | some (r, []) => if r.weight ≤ maxWeight then some r else none
  | _ => none

end Regex

end CSharpStyle
