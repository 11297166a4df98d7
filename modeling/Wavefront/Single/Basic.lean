import Wavefront.Word

/-!
# Single-precision values as bit patterns

A `Single` is one 32-bit pattern: a sign bit, eight exponent bits and twenty-three fraction bits.
The pattern is the carrier, and not an abstract number, because bit moves are visible: negation,
absolute value, selection and reinterpretation act on the pattern of a NaN or of a negative zero
like on any other.

* `magnitude` is the pattern without its sign, as a number. It orders the absolute values.
* `units` is the absolute value of a finite pattern, counted in units of `2^-149`, the smallest
  positive value. Every finite value is a whole number of units, so exact arithmetic on finite
  values is arithmetic on `Nat` and `Int`, and rounding happens in one place,
  `Wavefront.Single.Round`.
-/

namespace Wavefront

/-- A single-precision value, given by its bit pattern. -/
structure Single where
  /-- sign, exponent and fraction, from the top bit down -/
  bits : Word
deriving DecidableEq

namespace Single

/-! ## Fields -/

/-- The sign bit. Zeros and NaNs have one too. -/
def negative (x : Single) : Bool := x.bits.msb

/-- The pattern below the sign bit, as a number. -/
def magnitude (x : Single) : Nat := x.bits.toNat % 0x80000000

/-- The magnitude of the infinities: all exponent bits set, no fraction. -/
def infiniteMagnitude : Nat := 0x7f800000

/-- The smallest magnitude with a full-width significand. Magnitudes between zero and this are
*subnormal*. -/
def normalMagnitude : Nat := 0x800000

/-- Not a number: a magnitude beyond the infinite one. -/
def isNaN (x : Single) : Bool := infiniteMagnitude < x.magnitude

/-- One of the two infinities. -/
def isInfinite (x : Single) : Bool := x.magnitude == infiniteMagnitude

/-- Neither infinite nor NaN. -/
def isFinite (x : Single) : Bool := x.magnitude < infiniteMagnitude

/-- Not zero, but below every value with a full-width significand. -/
def isSubnormal (x : Single) : Bool := 0 < x.magnitude && x.magnitude < normalMagnitude

/-- The pattern with the given sign and magnitude. -/
def ofParts (negative : Bool) (magnitude : Nat) : Single :=
  ⟨BitVec.ofNat 32 (cond negative 0x80000000 0 + magnitude)⟩

/-! ## Constants -/

/-- The zero of the given sign. -/
def zero (negative : Bool) : Single := ofParts negative 0

/-- The infinity of the given sign. -/
def infinity (negative : Bool) : Single := ofParts negative infiniteMagnitude

/-- The NaN that arithmetic answers for operands that are none. -/
def nan : Single := ⟨0xffc00000⟩

/-- The value 1. -/
def one : Single := ⟨0x3f800000⟩

/-- The value 2. -/
def two : Single := ⟨0x40000000⟩

/-- The value 3. -/
def three : Single := ⟨0x40400000⟩

/-- The value 0.5. -/
def half : Single := ⟨0x3f000000⟩

instance : Inhabited Single := ⟨zero false⟩

/-! ## Value -/

/-- How many units of `2^-149` a magnitude stands for. Below the second exponent the fraction counts
units; each further exponent doubles the worth of the significand. -/
def unitsOf (magnitude : Nat) : Nat :=
  if magnitude < normalMagnitude then magnitude
  else (normalMagnitude + magnitude % normalMagnitude) <<< (magnitude / normalMagnitude - 1)

/-- The absolute value of a finite pattern, in units of `2^-149`. -/
def units (x : Single) : Nat := unitsOf x.magnitude

/-- The value of a finite pattern, in units of `2^-149`. -/
def scaled (x : Single) : Int := if x.negative then -(x.units : Int) else x.units

/-- How many units make 1. -/
def unitsPerOne : Nat := 1 <<< 149

/-- The position of a pattern that is no NaN on the number line, by magnitude instead of value: both
zeros are at 0, and a larger value is at a larger position. -/
def position (x : Single) : Int := if x.negative then -(x.magnitude : Int) else x.magnitude

/-! ## Moves of bits: on the pattern, NaN included -/

/-- The same magnitude with the other sign. -/
def neg (x : Single) : Single := ⟨x.bits ^^^ 0x80000000⟩

/-- The same magnitude without a sign. -/
def abs (x : Single) : Single := ⟨x.bits &&& 0x7fffffff⟩

/-- The top bit of the fraction set. A NaN that has it is *quiet*. -/
def quiet (x : Single) : Single := ⟨x.bits ||| 0x00400000⟩

end Single

end Wavefront
