import CSharpStyle.Format.Json

/-!
# Reading JSON

The grammar of RFC 8259. Escapes of surrogates are read in pairs, and values nest at most 127 levels deep.
-/

namespace CSharpStyle.JsonReader

def isSpace (c : Char) : Bool := c == ' ' || c == '\n' || c == '\t' || c == '\r'

def skipSpace (text : List Char) : List Char := text.dropWhile isSpace

def hexDigit? (c : Char) : Option Nat :=
  if c.isDigit then some (c.toNat - '0'.toNat)
  else if 'a' ≤ c && c ≤ 'f' then some (c.toNat - 'a'.toNat + 10)
  else if 'A' ≤ c && c ≤ 'F' then some (c.toNat - 'A'.toNat + 10)
  else none

/-- The number written by hexadecimal digits. -/
def hexNumber? (digits : List Char) : Option Nat :=
  digits.foldlM (fun n c => (hexDigit? c).map (n * 16 + ·)) 0

/-- The character behind a backslash, except for numbered ones. -/
def escape? (c : Char) : Option Char :=
  match c with
  | '"' | '\\' | '/' => some c
  | 'b' => some '\x08'
  | 'f' => some '\x0c'
  | 'n' => some '\n'
  | 'r' => some '\r'
  | 't' => some '\t'
  | _ => none

/-- The character of a pair of surrogates. -/
def pair? (high low : Nat) : Option Char :=
  if 0xDC00 ≤ low ∧ low ≤ 0xDFFF then
    some (Char.ofNat (0x10000 + (high - 0xD800) * 0x400 + (low - 0xDC00)))
  else none

/-- The characters up to the closing quote, of which those in `before` have been read, the last one first. -/
def stringFrom? (before : List Char) : List Char → Option (String × List Char)
  | [] => none
  | '"' :: rest => some (String.ofList before.reverse, rest)
  | '\\' :: 'u' :: a :: b :: c :: d :: rest =>
    match hexNumber? [a, b, c, d] with
    | none => none
    | some unit =>
      if unit < 0xD800 ∨ 0xDFFF < unit then stringFrom? (Char.ofNat unit :: before) rest
      else if 0xDBFF < unit then none
      else
        match rest with
        | '\\' :: 'u' :: e :: f :: g :: h :: behind =>
          match (hexNumber? [e, f, g, h]).bind (pair? unit) with
          | some char => stringFrom? (char :: before) behind
          | none => none
        | _ => none
  | '\\' :: c :: rest =>
    match escape? c with
    | some char => stringFrom? (char :: before) rest
    | none => none
  | c :: rest => if c.toNat < 0x20 then none else stringFrom? (c :: before) rest

def string? (text : List Char) : Option (String × List Char) := stringFrom? [] text

/-- The digits at the beginning, at least one. -/
def digits? (text : List Char) : Option (List Char × List Char) :=
  let digits := text.takeWhile Char.isDigit
  if digits.isEmpty then none else some (digits, text.drop digits.length)

/-- An exponent, if there is one. -/
def exponent? (text : List Char) : Option (List Char × List Char) :=
  match text with
  | e :: rest =>
    if e = 'e' ∨ e = 'E' then
      let (sign, rest) :=
        match rest with
        | '+' :: rest => (['+'], rest)
        | '-' :: rest => (['-'], rest)
        | _ => ([], rest)
      (digits? rest).map fun (digits, rest) => (e :: sign ++ digits, rest)
    else some ([], text)
  | [] => some ([], text)

/-- A fraction, if there is one. -/
def fraction? (text : List Char) : Option (List Char × List Char) :=
  match text with
  | '.' :: rest => (digits? rest).map fun (digits, rest) => ('.' :: digits, rest)
  | _ => some ([], text)

def number? (text : List Char) : Option (JsonValue × List Char) := do
  let (sign, unsigned) :=
    match text with
    | '-' :: rest => (['-'], rest)
    | _ => ([], text)
  let (whole, rest) ← digits? unsigned
  if 1 < whole.length ∧ whole.head? = some '0' then none
  else
    let (fraction, rest) ← fraction? rest
    let (exponent, rest) ← exponent? rest
    let written := String.ofList (sign ++ whole ++ fraction ++ exponent)
    if sign.isEmpty ∧ fraction.isEmpty ∧ exponent.isEmpty then
      some (.natural (whole.foldl (fun n c => n * 10 + (c.toNat - '0'.toNat)) 0), rest)
    else some (.number written, rest)

/-- The text behind `word`, if it begins with it. -/
def behind? (word text : List Char) : Option (List Char) :=
  if word.isPrefixOf text then some (text.drop word.length) else none

mutual

/-- A value at the beginning, in which at most `depth` levels are nested. -/
def value? : Nat → Nat → List Char → Option (JsonValue × List Char)
  | 0, _, _ => none
  | n + 1, depth, text =>
    match skipSpace text with
    | '"' :: rest => (string? rest).map fun (s, rest) => (.string s, rest)
    | '[' :: rest =>
      if depth = 0 then none
      else
        match skipSpace rest with
        | ']' :: rest => some (.array [], rest)
        | rest => (items? n (depth - 1) rest).map fun (items, rest) => (.array items, rest)
    | '\x7b' :: rest =>
      if depth = 0 then none
      else
        match skipSpace rest with
        | '\x7d' :: rest => some (.object [], rest)
        | rest => (entries? n (depth - 1) rest).map fun (entries, rest) => (.object entries, rest)
    | 't' :: rest => (behind? ['r', 'u', 'e'] rest).map (.bool true, ·)
    | 'f' :: rest => (behind? ['a', 'l', 's', 'e'] rest).map (.bool false, ·)
    | 'n' :: rest => (behind? ['u', 'l', 'l'] rest).map (.null, ·)
    | rest => number? rest

/-- Items up to the closing bracket. -/
def items? : Nat → Nat → List Char → Option (List JsonValue × List Char)
  | 0, _, _ => none
  | n + 1, depth, text => do
    let (item, rest) ← value? n depth text
    match skipSpace rest with
    | ',' :: rest =>
      let (items, rest) ← items? n depth rest
      some (item :: items, rest)
    | ']' :: rest => some ([item], rest)
    | _ => none

/-- Entries up to the closing brace. -/
def entries? : Nat → Nat → List Char → Option (List (String × JsonValue) × List Char)
  | 0, _, _ => none
  | n + 1, depth, text => do
    match skipSpace text with
    | '"' :: rest =>
      let (key, rest) ← string? rest
      match skipSpace rest with
      | ':' :: rest =>
        let (value, rest) ← value? n depth rest
        match skipSpace rest with
        | ',' :: rest =>
          let (entries, rest) ← entries? n depth rest
          some ((key, value) :: entries, rest)
        | '\x7d' :: rest => some ([(key, value)], rest)
        | _ => none
      | _ => none
    | _ => none

end

end CSharpStyle.JsonReader

namespace CSharpStyle

/-- The value that a text consists of. -/
def JsonValue.parse? (text : String) : Option JsonValue :=
  match JsonReader.value? (2 * text.length + 1) 127 text.toList with
  | some (value, rest) => if (JsonReader.skipSpace rest).isEmpty then some value else none
  | none => none

end CSharpStyle
