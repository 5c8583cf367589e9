/-!
# Numbers as texts

Natural numbers are written with hexadecimal digits. A binary floating-point number is a natural number times a power
of two, and is rounded to tenths without any further error.
-/

namespace CSharpStyle

/-- Lower-case hexadecimal digits without leading zeros. -/
def hexadecimal (n : Nat) : String := String.ofList (Nat.toDigits 16 n)

/-- At least `width` hexadecimal digits. -/
def hexadecimalWithWidth (width n : Nat) : String :=
  let digits := Nat.toDigits 16 n
  String.ofList (List.replicate (width - digits.length) '0' ++ digits)

namespace Decimal

/-- The quotient rounded to the nearest number, from the middle to the even one. -/
def roundedQuotient (numerator denominator : Nat) : Nat :=
  let low := numerator / denominator
  let twice := 2 * (numerator % denominator)
  if twice < denominator ∨ (twice = denominator ∧ low % 2 = 0) then low else low + 1

/-- A finite number that is not negative, as `mantissa * 2 ^ exponent / 2 ^ 1075`. -/
def parts (x : Float) : Nat × Nat :=
  let bits := x.toBits.toNat
  let fraction := bits % (1 <<< 52)
  let exponent := (bits >>> 52) % (1 <<< 11)
  if exponent = 0 then (fraction, 1) else ((1 <<< 52) + fraction, exponent)

/-- A finite number that is not negative, with one digit behind the point. -/
def withTenths (x : Float) : String :=
  let (mantissa, exponent) := parts x
  let tenths := roundedQuotient ((mantissa * 10) <<< exponent) (1 <<< 1075)
  s!"{tenths / 10}.{tenths % 10}"

end Decimal

end CSharpStyle
