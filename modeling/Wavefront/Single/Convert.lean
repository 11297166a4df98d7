import Wavefront.Single.Arithmetic

/-!
# Conversions of single-precision values

Rounding to an integral value in the four directions that shading languages know, integers of both
signs to and from single precision, and double-precision literals narrowed once.
-/

namespace Wavefront.Single

/-! ## Integral values -/

/-- Replaces a finite value by an integral one of the same sign. `settle` sees the integer part of
the absolute value and what is beyond it, in units, and answers the absolute value of the result.
Infinities and NaNs stay. -/
def toIntegral (settle : (whole rest : Nat) → Nat) (x : Single) : Single :=
  if x.isFinite then
    let whole := settle (x.units / unitsPerOne) (x.units % unitsPerOne)
    ofRatio .keep x.negative (whole * unitsPerOne) 1
  else x

/-- Toward zero. -/
def trunc : Single → Single := toIntegral fun whole _ => whole

/-- Toward negative infinity. -/
def floor (x : Single) : Single :=
  x.toIntegral fun whole rest => if x.negative && rest != 0 then whole + 1 else whole

/-- Toward positive infinity. -/
def ceil (x : Single) : Single :=
  x.toIntegral fun whole rest => if !x.negative && rest != 0 then whole + 1 else whole

/-- To the nearest integer, halves away from zero. -/
def round : Single → Single :=
  toIntegral fun whole rest => if unitsPerOne ≤ 2 * rest then whole + 1 else whole

/-! ## Integers -/

/-- The nearest value to an integer, ties to even. -/
def ofInt (i : Int) : Single := ofRatio .keep (i < 0) (i.natAbs * unitsPerOne) 1

/-- The exact value of a finite pattern with its fraction cut off. -/
def wholePart (x : Single) : Int :=
  let whole : Nat := x.units / unitsPerOne
  if x.negative then -(whole : Int) else whole

/-- The value with its fraction cut off, kept within the bounds. NaN counts as 0. -/
def clampedWhole (low high : Int) (x : Single) : Int :=
  if x.isNaN then 0
  else if x.isInfinite then if x.negative then low else high
  else max low (min high x.wholePart)

/-- To a signed word: cut toward zero, clamped to the range, 0 for NaN. -/
def toSigned (x : Single) : Word := BitVec.ofInt 32 (x.clampedWhole (-0x80000000) 0x7fffffff)

/-- To an unsigned word: cut toward zero, clamped to the range, 0 for NaN. -/
def toUnsigned (x : Single) : Word := BitVec.ofInt 32 (x.clampedWhole 0 0xffffffff)

/-! ## Double precision -/

/-- The exponent field of a double-precision pattern. -/
def doubleExponent (bits : BitVec 64) : Nat := (bits.toNat >>> 52) % 0x800

/-- The fraction field of a double-precision pattern. -/
def doubleFraction (bits : BitVec 64) : Nat := bits.toNat % 0x10000000000000

/-- Narrows a double-precision pattern, ties to even. A finite double is a whole number of units of
`2^-1074`. A NaN keeps its sign and the top of its fraction and becomes quiet. -/
def ofDouble (bits : BitVec 64) : Single :=
  let exponent := doubleExponent bits
  let fraction := doubleFraction bits
  if exponent = 2047 then
    if fraction = 0 then infinity bits.msb
    else ofParts bits.msb (nan.magnitude ||| fraction >>> 29)
  else
    let significand := if exponent = 0 then fraction else 0x10000000000000 + fraction
    ofRatio .keep bits.msb (significand <<< (exponent - 1)) (1 <<< 925)

end Wavefront.Single
