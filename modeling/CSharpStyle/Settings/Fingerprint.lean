import CSharpStyle.Digest.SipHash
import CSharpStyle.Settings.Basic
import CSharpStyle.Text.Numeral
import CSharpStyle.Text.Utf8

/-!
# Fingerprint of settings

The fingerprint tells whether results that were kept from an earlier run can be used again. It is the hash of a
byte stream that is written from the effective settings: the version, the path patterns, the name of ignore
files and the enabled rules.
-/

namespace CSharpStyle.Fingerprint

/-- A number as eight bytes, the lowest first. -/
def number (n : Nat) : List UInt8 := (List.range 8).map fun i => (n >>> (8 * i)).toUInt8

/-- The bytes of a text, with a byte behind them that no text contains. -/
def text (s : String) : List UInt8 := Utf8.encode s ++ [0xFF]

def option {α : Type} (encode : α → List UInt8) : Option α → List UInt8
  | none => number 0
  | some a => number 1 ++ encode a

def list {α : Type} (encode : α → List UInt8) (items : List α) : List UInt8 :=
  number items.length ++ items.flatMap encode

def selection (s : Selection) : List UInt8 :=
  text s.rule.name ++ number s.severity.rank ++ option text s.pattern

/-- The stream that stands for settings. -/
def stream (s : Settings) : List UInt8 :=
  text s.version ++ list text s.paths.patterns ++ option text s.paths.ignoreFile ++
    s.selections.flatMap selection

end CSharpStyle.Fingerprint

namespace CSharpStyle

def Settings.fingerprint (s : Settings) : String := hexadecimal (SipHash.hash (Fingerprint.stream s)).toNat

end CSharpStyle
