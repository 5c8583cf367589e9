import CSharpStyle.Text.Numeral

/-!
# SHA-256

The digest of FIPS 180-4: the padded message is cut into blocks of 64 bytes, and each block runs through 64
steps of the compression function.
-/

namespace CSharpStyle.Sha256

/-- The eight words of the state. -/
structure State where
  a : UInt32
  b : UInt32
  c : UInt32
  d : UInt32
  e : UInt32
  f : UInt32
  g : UInt32
  h : UInt32
  deriving DecidableEq, Repr, Inhabited

def start : State :=
  ⟨0x6a09e667, 0xbb67ae85, 0x3c6ef372, 0xa54ff53a, 0x510e527f, 0x9b05688c, 0x1f83d9ab, 0x5be0cd19⟩

/-- The constants of the 64 steps. -/
def constants : List UInt32 :=
  [0x428a2f98, 0x71374491, 0xb5c0fbcf, 0xe9b5dba5, 0x3956c25b, 0x59f111f1, 0x923f82a4, 0xab1c5ed5,
   0xd807aa98, 0x12835b01, 0x243185be, 0x550c7dc3, 0x72be5d74, 0x80deb1fe, 0x9bdc06a7, 0xc19bf174,
   0xe49b69c1, 0xefbe4786, 0x0fc19dc6, 0x240ca1cc, 0x2de92c6f, 0x4a7484aa, 0x5cb0a9dc, 0x76f988da,
   0x983e5152, 0xa831c66d, 0xb00327c8, 0xbf597fc7, 0xc6e00bf3, 0xd5a79147, 0x06ca6351, 0x14292967,
   0x27b70a85, 0x2e1b2138, 0x4d2c6dfc, 0x53380d13, 0x650a7354, 0x766a0abb, 0x81c2c92e, 0x92722c85,
   0xa2bfe8a1, 0xa81a664b, 0xc24b8b70, 0xc76c51a3, 0xd192e819, 0xd6990624, 0xf40e3585, 0x106aa070,
   0x19a4c116, 0x1e376c08, 0x2748774c, 0x34b0bcb5, 0x391c0cb3, 0x4ed8aa4a, 0x5b9cca4f, 0x682e6ff3,
   0x748f82ee, 0x78a5636f, 0x84c87814, 0x8cc70208, 0x90befffa, 0xa4506ceb, 0xbef9a3f7, 0xc67178f2]

def rotateRight (x : UInt32) (n : UInt32) : UInt32 := (x >>> n) ||| (x <<< (32 - n))

def bigSigma0 (x : UInt32) : UInt32 := rotateRight x 2 ^^^ rotateRight x 13 ^^^ rotateRight x 22
def bigSigma1 (x : UInt32) : UInt32 := rotateRight x 6 ^^^ rotateRight x 11 ^^^ rotateRight x 25
def smallSigma0 (x : UInt32) : UInt32 := rotateRight x 7 ^^^ rotateRight x 18 ^^^ (x >>> 3)
def smallSigma1 (x : UInt32) : UInt32 := rotateRight x 17 ^^^ rotateRight x 19 ^^^ (x >>> 10)

def choose (x y z : UInt32) : UInt32 := (x &&& y) ^^^ (~~~x &&& z)
def majority (x y z : UInt32) : UInt32 := (x &&& y) ^^^ (x &&& z) ^^^ (y &&& z)

/-- One step with a word of the schedule and its constant. -/
def step (s : State) (word constant : UInt32) : State :=
  let first := s.h + bigSigma1 s.e + choose s.e s.f s.g + constant + word
  let second := bigSigma0 s.a + majority s.a s.b s.c
  ⟨first + second, s.a, s.b, s.c, s.d + first, s.e, s.f, s.g⟩

/-- The word that follows the sixteen words of `window`. -/
def nextWord (window : Array UInt32) : UInt32 :=
  smallSigma1 (window.getD 14 0) + window.getD 9 0 + smallSigma0 (window.getD 1 0) + window.getD 0 0

/-- The steps with the given constants, where `window` holds the next sixteen words of the schedule. -/
def runSteps : Array UInt32 → List UInt32 → State → State
  | _, [], s => s
  | window, constant :: rest, s =>
    runSteps ((window.extract 1 16).push (nextWord window)) rest (step s (window.getD 0 0) constant)

def bigEndian (bytes : List UInt8) : UInt32 :=
  (bytes.foldl (fun (n : Nat) (b : UInt8) => n * 256 + b.toNat) 0).toUInt32

def addStates (s t : State) : State :=
  ⟨s.a + t.a, s.b + t.b, s.c + t.c, s.d + t.d, s.e + t.e, s.f + t.f, s.g + t.g, s.h + t.h⟩

/-- The consecutive pieces of `n` items, where the last may be shorter. -/
def pieces {α : Type} (n : Nat) (items : List α) : List (List α) :=
  if n = 0 ∨ items.length = 0 then [] else items.take n :: pieces n (items.drop n)
termination_by items.length
decreasing_by simp only [List.length_drop]; omega

def compress (s : State) (block : List UInt8) : State :=
  addStates s (runSteps ((pieces 4 block).map bigEndian).toArray constants s)

/-- A one bit, zeros, and the number of bits as eight bytes, so that whole blocks result. -/
def padding (count : Nat) : List UInt8 :=
  let zeros := (119 - count % 64) % 64
  0x80 :: (List.replicate zeros (0 : UInt8) ++
    (List.range 8).map fun i => ((8 * count) >>> (8 * (7 - i))).toUInt8)

def digest (bytes : List UInt8) : State :=
  (pieces 64 (bytes ++ padding bytes.length)).foldl compress start

/-- The digest as 64 hexadecimal digits. -/
def hexDigest (bytes : List UInt8) : String :=
  let s := digest bytes
  String.join ([s.a, s.b, s.c, s.d, s.e, s.f, s.g, s.h].map fun w => hexadecimalWithWidth 8 w.toNat)

end CSharpStyle.Sha256
