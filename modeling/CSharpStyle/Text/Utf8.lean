/-!
# UTF-8

Texts as bytes. Reading goes character by character; where the bytes are no character, the longest beginning
of one counts as a single fault.
-/

namespace CSharpStyle.Utf8

def encode (text : String) : List UInt8 := text.toUTF8.toList

/-- The number of bytes that follow a first byte, and the range of the first of them. -/
def tailOf? (b : UInt8) : Option (Nat × UInt8 × UInt8) :=
  if b < 0x80 then some (0, 0, 0)
  else if b < 0xC2 then none
  else if b < 0xE0 then some (1, 0x80, 0xBF)
  else if b = 0xE0 then some (2, 0xA0, 0xBF)
  else if b = 0xED then some (2, 0x80, 0x9F)
  else if b < 0xF0 then some (2, 0x80, 0xBF)
  else if b = 0xF0 then some (3, 0x90, 0xBF)
  else if b < 0xF4 then some (3, 0x80, 0xBF)
  else if b = 0xF4 then some (3, 0x80, 0x8F)
  else none

/-- The bits that a first byte with `n` followers adds to the code point. -/
def leadBits (n : Nat) (b : UInt8) : Nat :=
  match n with
  | 0 => b.toNat
  | 1 => b.toNat % 0x20
  | 2 => b.toNat % 0x10
  | _ => b.toNat % 0x08

/-- The bytes at the beginning that continue a character, at most `n`, the first of them between `low` and
`high`. -/
def continuation : Nat → UInt8 → UInt8 → List UInt8 → List UInt8
  | n + 1, low, high, b :: rest =>
    if low ≤ b && b ≤ high then b :: continuation n 0x80 0xBF rest else []
  | _, _, _, _ => []

/-- The first character of the bytes, or a fault, with the number of bytes behind the first that belong to it. -/
def first (b : UInt8) (rest : List UInt8) : Option Char × Nat :=
  match tailOf? b with
  | none => (none, 0)
  | some (n, low, high) =>
    let tail := continuation n low high rest
    if tail.length = n then
      (some (Char.ofNat (tail.foldl (fun code t => code * 0x40 + t.toNat % 0x40) (leadBits n b))), n)
    else (none, tail.length)

/-- The characters of the bytes, with nothing for a fault. The first `skipped` bytes belong to what was read
before. -/
def charactersFrom : Nat → List UInt8 → List (Option Char)
  | _, [] => []
  | skipped + 1, _ :: rest => charactersFrom skipped rest
  | 0, b :: rest =>
    let (c, n) := first b rest
    c :: charactersFrom n rest

def characters (bytes : List UInt8) : List (Option Char) := charactersFrom 0 bytes

/-- The text, if all bytes are read. -/
def decode? (bytes : List UInt8) : Option String := ((characters bytes).mapM id).map String.ofList

/-- The text with a replacement character for every fault. -/
def decodeLossy (bytes : List UInt8) : String :=
  String.ofList ((characters bytes).map (·.getD '\ufffd'))

end CSharpStyle.Utf8
