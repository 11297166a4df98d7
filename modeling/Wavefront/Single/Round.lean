import Wavefront.Single.Basic

/-!
# Rounding to single precision

One function rounds: `ofRatio` takes an exact absolute value `num / den`, in units of `2^-149`, to
the nearest `Single`, ties to the even pattern. Addition, multiplication, division, the square root
and every conversion give it their exact result.

A magnitude is linear in the value between two powers of two, and continues across them: the
magnitude after the last one of a binade is the first one of the next. So rounding the significand
of the binade to an integer and adding it to the binade's first magnitude is right also when it
rounds up to the next power of two, and past the last binade it lands on the infinite magnitude.

`Denormals` is the mode that a control word sets: whether subnormal operands are read as zero, and
whether subnormal results are written as zero.
-/

namespace Wavefront

/-- The integer nearest to `num / den`; of two equally near ones the even one. -/
def nearestEven (num den : Nat) : Nat :=
  let whole := num / den
  let rest := num % den
  if 2 * rest < den then whole
  else if den < 2 * rest then whole + 1
  else whole + whole % 2

/-- What float arithmetic does with subnormal values. -/
structure Denormals where
  /-- subnormal operands count as the zero of their sign -/
  readAsZero : Bool
  /-- a result too small for a full-width significand becomes the zero of its sign -/
  flushResults : Bool
deriving DecidableEq

/-- Subnormal values are kept. -/
def Denormals.keep : Denormals := ⟨false, false⟩

/-- What an operation sees of an operand. -/
def Denormals.operand (mode : Denormals) (x : Single) : Single :=
  if mode.readAsZero && x.isSubnormal then Single.zero x.negative else x

namespace Single

/-- The magnitude nearest to `num / den` units, ties to even; infinite from half a step beyond the
largest finite value on. -/
def nearestMagnitude (num den : Nat) : Nat :=
  -- below the first doubling of the unit the subtraction stays at zero: subnormals share its grid
  let binade := Nat.log2 (num / den) - 23
  min (binade * normalMagnitude + nearestEven num (den <<< binade)) infiniteMagnitude

/-- A value is tiny when, rounded to a full-width significand with no lower limit on the exponent,
it stays below the smallest value that has one: below `2^-126 - 2^-151`, the midpoint under that
value. -/
def isTiny (num den : Nat) : Bool := 4 * num < 0x1ffffff * den

/-- The `Single` of the given sign nearest to `num / den` units. -/
def ofRatio (mode : Denormals) (negative : Bool) (num den : Nat) : Single :=
  if mode.flushResults && isTiny num den then zero negative
  else ofParts negative (nearestMagnitude num den)

end Single

end Wavefront
