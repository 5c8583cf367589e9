/-!
# SipHash-1-3

A keyed hash of a byte stream, here with the key zero: one round for each word of eight bytes, three rounds at
the end.
-/

namespace CSharpStyle.SipHash

structure State where
  v0 : UInt64
  v1 : UInt64
  v2 : UInt64
  v3 : UInt64
  deriving DecidableEq, Repr, Inhabited

def start : State := ⟨0x736f6d6570736575, 0x646f72616e646f6d, 0x6c7967656e657261, 0x7465646279746573⟩

def rotateLeft (x : UInt64) (n : UInt64) : UInt64 := (x <<< n) ||| (x >>> (64 - n))

def round (s : State) : State :=
  let v0 := s.v0 + s.v1
  let v1 := rotateLeft s.v1 13 ^^^ v0
  let v0 := rotateLeft v0 32
  let v2 := s.v2 + s.v3
  let v3 := rotateLeft s.v3 16 ^^^ v2
  let v0 := v0 + v3
  let v3 := rotateLeft v3 21 ^^^ v0
  let v2 := v2 + v1
  let v1 := rotateLeft v1 17 ^^^ v2
  let v2 := rotateLeft v2 32
  ⟨v0, v1, v2, v3⟩

/-- The number whose bytes are given, the lowest first. -/
def littleEndian : List UInt8 → Nat
  | [] => 0
  | b :: rest => b.toNat + 256 * littleEndian rest

def absorb (s : State) (word : UInt64) : State :=
  let mixed := round { s with v3 := s.v3 ^^^ word }
  { mixed with v0 := mixed.v0 ^^^ word }

/-- The last word holds the bytes left over and, as its highest byte, the number of all bytes. -/
def lastWord (count : Nat) (left : List UInt8) : UInt64 :=
  (littleEndian left + (count % 256) <<< 56).toUInt64

/-- Takes in the bytes of a stream of `count` bytes. -/
def absorbAll (count : Nat) (s : State) : List UInt8 → State
  | b0 :: b1 :: b2 :: b3 :: b4 :: b5 :: b6 :: b7 :: rest =>
    absorbAll count (absorb s (littleEndian [b0, b1, b2, b3, b4, b5, b6, b7]).toUInt64) rest
  | left => absorb s (lastWord count left)

def finish (s : State) : UInt64 :=
  let mixed := round (round (round { s with v2 := s.v2 ^^^ 0xff }))
  mixed.v0 ^^^ mixed.v1 ^^^ mixed.v2 ^^^ mixed.v3

def hash (bytes : List UInt8) : UInt64 := finish (absorbAll bytes.length start bytes)

end CSharpStyle.SipHash
