import CSharpStyle.Text.Numeral

/-!
# YAML documents

The part of YAML that settings are written in: mappings with scalar keys, sequences and scalars. A scalar is
kept as its text, with a mark when it was written as a string, since only a scalar without quotes can stand for
something other than its text.

* `Yaml.print` writes a document as blocks. A string is written without quotes where it reads back as the same
  string.
-/

namespace CSharpStyle

structure YamlScalar where
  text : String
  /-- The scalar stands for its text and nothing else. -/
  isString : Bool
  deriving DecidableEq, Repr, Inhabited

inductive Yaml
  | scalar (s : YamlScalar)
  | sequence (items : List Yaml)
  | mapping (entries : List (String × Yaml))
  deriving Repr, Inhabited

namespace YamlScalar

/-- Only a plain scalar without text is empty. -/
def isEmpty (s : YamlScalar) : Bool := !s.isString && s.text.isEmpty

def nullTexts : List String := ["null", "Null", "NULL", "~"]

def isNull (s : YamlScalar) : Bool := !s.isString && (s.text.isEmpty || nullTexts.contains s.text)

def trueTexts : List String := ["true", "True", "TRUE"]

def falseTexts : List String := ["false", "False", "FALSE"]

def bool? (s : YamlScalar) : Option Bool :=
  if s.isString then none
  else if trueTexts.contains s.text then some true
  else if falseTexts.contains s.text then some false
  else none

/-- Words that older readers take for truth values. -/
def oldTruthTexts : List String :=
  ["y", "Y", "yes", "Yes", "YES", "n", "N", "no", "No", "NO", "on", "On", "ON", "off", "Off", "OFF"]

def withoutSign (text : List Char) : List Char :=
  match text with
  | '+' :: rest | '-' :: rest => rest
  | _ => text

def areDigits (isDigit : Char → Bool) (text : List Char) : Bool := !text.isEmpty && text.all isDigit

def isHexDigit (c : Char) : Bool := c.isDigit || ('a' ≤ c && c ≤ 'f') || ('A' ≤ c && c ≤ 'F')

/-- Digits behind a superfluous zero, which readers disagree about. -/
def hasLeadingZero (text : List Char) : Bool :=
  match withoutSign text with
  | '0' :: rest => areDigits Char.isDigit rest
  | _ => false

def isInteger (text : List Char) : Bool :=
  match withoutSign text with
  | '0' :: 'x' :: rest => areDigits isHexDigit rest
  | '0' :: 'o' :: rest => areDigits (fun c => '0' ≤ c && c ≤ '7') rest
  | '0' :: 'b' :: rest => areDigits (fun c => c == '0' || c == '1') rest
  | digits => areDigits Char.isDigit digits

/-- An exponent, or nothing. -/
def isExponent (text : List Char) : Bool :=
  match text with
  | [] => true
  | e :: rest => (e == 'e' || e == 'E') && areDigits Char.isDigit (withoutSign rest)

/-- A decimal number with digits on at least one side of the point. -/
def isDecimal (text : List Char) : Bool :=
  let unsigned := withoutSign text
  let whole := unsigned.takeWhile Char.isDigit
  match unsigned.drop whole.length with
  | '.' :: rest =>
    let fraction := rest.takeWhile Char.isDigit
    !(whole.isEmpty && fraction.isEmpty) && isExponent (rest.drop fraction.length)
  | rest => !whole.isEmpty && isExponent rest

def specialNumbers : List String :=
  [".inf", ".Inf", ".INF", "+.inf", "+.Inf", "+.INF", "-.inf", "-.Inf", "-.INF", ".nan", ".NaN", ".NAN"]

/-- Without quotes the text stands for no string, or not for all readers. -/
def isAmbiguous (text : String) : Bool :=
  let chars := text.toList
  text.isEmpty || nullTexts.contains text || trueTexts.contains text || falseTexts.contains text ||
    oldTruthTexts.contains text || hasLeadingZero chars || isInteger chars || isDecimal chars ||
    specialNumbers.contains text

/-- Characters with a meaning of their own at the beginning of a scalar. -/
def indicators : List Char :=
  ['#', ',', '[', ']', '\x7b', '\x7d', '&', '*', '!', '|', '>', '\x27', '"', '%', '@', '\x60']

def isBlankOrEnd (next : Option Char) : Bool := next.all fun c => c == ' ' || c == '\t'

/-- A `:` that would end a key, or a `#` that would begin a comment. -/
def hasInnerIndicator : List Char → Bool
  | [] => false
  | c :: rest =>
    (c == ':' && isBlankOrEnd rest.head?) || (c == ' ' && rest.head? == some '#') || hasInnerIndicator rest

def startsWithIndicator (text : List Char) : Bool :=
  match text with
  | [] => false
  | c :: rest =>
    indicators.contains c || ((c == '?' || c == '-') && isBlankOrEnd rest.head?) ||
      ['-', '-', '-'].isPrefixOf text || ['.', '.', '.'].isPrefixOf text

def isPrintable (c : Char) : Bool :=
  (0x20 ≤ c.toNat && c.toNat ≤ 0x7E) ||
    (0xA0 ≤ c.toNat && c.toNat ≤ 0xFFFD && c.toNat != 0xFEFF && c.toNat != 0x2028 && c.toNat != 0x2029)

/-- The text can stand without quotes, as far as its characters are concerned. -/
def isPlain (text : List Char) : Bool :=
  !startsWithIndicator text && !hasInnerIndicator text && text.head? != some ' ' && text.getLast? != some ' '

/-- A character between double quotes. -/
def escaped (c : Char) : List Char :=
  match c with
  | '"' => ['\\', '"']
  | '\\' => ['\\', '\\']
  | '\x00' => ['\\', '0']
  | '\x07' => ['\\', 'a']
  | '\x08' => ['\\', 'b']
  | '\t' => ['\\', 't']
  | '\n' => ['\\', 'n']
  | '\x0b' => ['\\', 'v']
  | '\x0c' => ['\\', 'f']
  | '\r' => ['\\', 'r']
  | '\x1b' => ['\\', 'e']
  | '\u0085' => ['\\', 'N']
  | '\u2028' => ['\\', 'L']
  | '\u2029' => ['\\', 'P']
  | c =>
    if isPrintable c then [c]
    else
      let (letter, width) := if c.toNat < 0x100 then ('x', 2) else if c.toNat < 0x10000 then ('u', 4) else ('U', 8)
      '\\' :: letter :: (hexadecimalWithWidth width c.toNat).toList.map Char.toUpper

def singleQuoted (text : List Char) : String :=
  String.ofList ('\x27' :: text.flatMap (fun c => if c = '\x27' then [c, c] else [c]) ++ ['\x27'])

def doubleQuoted (text : List Char) : String :=
  String.ofList ('"' :: text.flatMap escaped ++ ['"'])

/-- A string in the simplest form that reads back as the same string. -/
def printString (text : String) : String :=
  let chars := text.toList
  if !chars.all isPrintable then doubleQuoted chars
  else if isAmbiguous text || !isPlain chars then singleQuoted chars
  else text

def print (s : YamlScalar) : String := if s.isString then printString s.text else s.text

end YamlScalar

namespace Yaml

def string (text : String) : Yaml := scalar ⟨text, true⟩

def bool (b : Bool) : Yaml := scalar ⟨if b then "true" else "false", false⟩

def null : Yaml := scalar ⟨"null", false⟩

def ofOption {α : Type} (encode : α → Yaml) : Option α → Yaml
  | some a => encode a
  | none => null

def indent (lines : List String) : List String := lines.map ("  " ++ ·)

/-- Puts a dash in front of the first of the lines of an item and indents the others. -/
def asItem : List String → List String
  | [] => []
  | first :: rest => ("- " ++ first) :: indent rest

mutual

/-- The lines of a document. -/
def lines : Yaml → List String
  | scalar s => [s.print]
  | sequence items => if items.isEmpty then ["[]"] else itemLines items
  | mapping entries => if entries.isEmpty then ["\x7b\x7d"] else entryLines entries

def itemLines : List Yaml → List String
  | [] => []
  | item :: rest => asItem (lines item) ++ itemLines rest

/-- The lines of a mapping. A sequence stands under its key without indentation. -/
def entryLines : List (String × Yaml) → List String
  | [] => []
  | (key, value) :: rest =>
    let name := YamlScalar.printString key ++ ":"
    let own :=
      match value with
      | scalar s => [name ++ " " ++ s.print]
      | sequence items => if items.isEmpty then [name ++ " []"] else name :: itemLines items
      | mapping entries => if entries.isEmpty then [name ++ " \x7b\x7d"] else name :: indent (entryLines entries)
    own ++ entryLines rest

end

def print (document : Yaml) : String := String.join (document.lines.map (· ++ "\n"))

end Yaml

end CSharpStyle
