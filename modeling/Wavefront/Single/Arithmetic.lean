import Wavefront.Single.Round

/-!
# Arithmetic and order of single-precision values

Each operation deals with NaN, infinities and signed zeros, computes the exact result of what is
left in `Nat` or `Int`, and rounds once. A NaN operand is passed on, with its sign and its fraction;
for other operands that have no result the answer is `Single.nan`. The mode says how subnormal
operands and results are treated; comparisons read operands only.
-/

namespace Wavefront.Single

/-! ## Arithmetic -/

/-- The NaN that is passed on if there is one among the operands: the first one, made quiet. -/
def passOn (x y : Single) : Single := if x.isNaN then x.quiet else y.quiet

/-- Sum. Opposite values cancel to the positive zero; a sum of two zeros is negative only if both
are. -/
def add (mode : Denormals) (x y : Single) : Single :=
  let x := mode.operand x
  let y := mode.operand y
  if x.isNaN || y.isNaN then passOn x y
  else if x.isInfinite then
    if y.isInfinite && x.negative != y.negative then nan else x
  else if y.isInfinite then y
  else
    -- both are whole numbers of units, so the sum is exact
    let sum := x.scaled + y.scaled
    if sum = 0 then zero (x.negative && y.negative)
    else ofRatio mode (sum < 0) sum.natAbs 1

/-- Difference: the sum with the negated operand. A NaN is passed on as it is. -/
def sub (mode : Denormals) (x y : Single) : Single :=
  if x.isNaN || y.isNaN then passOn x y else add mode x y.neg

/-- Product. Zero times infinity is NaN. A product of units is in units of `2^-298`. -/
def mul (mode : Denormals) (x y : Single) : Single :=
  let x := mode.operand x
  let y := mode.operand y
  let negative := x.negative != y.negative
  if x.isNaN || y.isNaN then passOn x y
  else if x.isInfinite then if y.magnitude = 0 then nan else infinity negative
  else if y.isInfinite then if x.magnitude = 0 then nan else infinity negative
  else ofRatio mode negative (x.units * y.units) unitsPerOne

/-- Quotient. Zero by zero and infinity by infinity are NaN, anything else by zero is infinite. -/
def div (mode : Denormals) (x y : Single) : Single :=
  let x := mode.operand x
  let y := mode.operand y
  let negative := x.negative != y.negative
  if x.isNaN || y.isNaN then passOn x y
  else if x.isInfinite then if y.isInfinite then nan else infinity negative
  else if y.isInfinite then zero negative
  else if y.magnitude = 0 then if x.magnitude = 0 then nan else infinity negative
  else ofRatio mode negative (x.units * unitsPerOne) y.units

/-- The largest number whose square is at most `n`, built from the top bit down: `root` is right
above bit `bit`, and each step decides one bit. -/
def rootBits (n : Nat) : (bit : Nat) → (root : Nat) → Nat
  | 0, root => root
  | bit + 1, root =>
    let next := root + 1 <<< bit
    rootBits n bit (if next * next ≤ n then next else root)

/-- The integer square root. -/
def integerRoot (n : Nat) : Nat := rootBits n (Nat.log2 n / 2 + 1) 0

/-- Square root. Negative values have none, but the negative zero is its own. The root of `u` units
is the root of `u * 2^149`, in units; its integer part is far wider than a significand, so all that
is lost below it is whether it is exact, and half a unit stands for that. -/
def sqrt (x : Single) : Single :=
  if x.isNaN then x.quiet
  else if x.magnitude = 0 then x
  else if x.negative then nan
  else if x.isInfinite then x
  else
    let square := x.units * unitsPerOne
    let root := integerRoot square
    ofRatio .keep false (2 * root + if root * root = square then 0 else 1) 2

/-! ## Order -/

/-- Equal as numbers: NaN to nothing, the two zeros to each other. -/
def eq (mode : Denormals) (x y : Single) : Bool :=
  let x := mode.operand x
  let y := mode.operand y
  !x.isNaN && !y.isNaN && x.position == y.position

/-- Less than. False when either is NaN. -/
def lt (mode : Denormals) (x y : Single) : Bool :=
  let x := mode.operand x
  let y := mode.operand y
  !x.isNaN && !y.isNaN && x.position < y.position

/-- Less than or equal. False when either is NaN. -/
def le (mode : Denormals) (x y : Single) : Bool :=
  let x := mode.operand x
  let y := mode.operand y
  !x.isNaN && !y.isNaN && x.position ≤ y.position

end Wavefront.Single
