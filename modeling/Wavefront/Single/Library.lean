import Wavefront.Single.Convert

/-!
# The math library

Some functions of single-precision values are not computed here: a program is linked with a library
for them. The library has the transcendental functions of both backends, which take them lane by
lane, and the functions of the scalar backend that the unit has instructions or sequences of its own
for: the absolute value, the square root and the roundings to integers.

So a `MathLibrary` is a parameter of whatever calls one of these functions, and nothing is known of
it but that its functions are functions of their arguments. Where both backends are compared, or
exact results are claimed, what the library documents is relied on:

* `MathLibrary.Exact`: the absolute value and the roundings have one right result for a number, and
  give it;
* `MathLibrary.Lawful`: so does the root; and NaN arguments lead to NaN, except for two powers that
  are one whatever the other argument is.
-/

namespace Wavefront

/-- The transcendental functions of one argument. -/
inductive Elementary
  | sin
  | cos
  | tan
  | asin
  | acos
  | atan
  | sinh
  | cosh
  | tanh
  | asinh
  | acosh
  | atanh
  | exp
  | log
  | exp2
  | log2
deriving DecidableEq

/-- The functions of the library that a program is linked with. -/
structure MathLibrary where
  abs : Single → Single
  sqrt : Single → Single
  /-- toward negative infinity -/
  floor : Single → Single
  /-- toward positive infinity -/
  ceil : Single → Single
  /-- toward zero -/
  trunc : Single → Single
  /-- to the nearest integer, halves away from zero -/
  round : Single → Single
  elementary : Elementary → Single → Single
  /-- the angle of a point, given by `y` and then `x` -/
  atan2 : Single → Single → Single
  /-- the first argument raised to the second -/
  pow : Single → Single → Single

/-- `f` gives the same as `g`, or both give NaN. Which one is not documented. -/
def Follows (f g : Single → Single) : Prop :=
  ∀ x, f x = g x ∨ (f x).isNaN = true ∧ (g x).isNaN = true

/-- What is documented of the functions that are exact. A zero has the sign of the argument. -/
structure MathLibrary.Exact (lib : MathLibrary) : Prop where
  /-- the sign bit is cleared, that of a NaN included -/
  abs : ∀ x, lib.abs x = x.abs
  floor : Follows lib.floor Single.floor
  ceil : Follows lib.ceil Single.ceil
  trunc : Follows lib.trunc Single.trunc
  round : Follows lib.round Single.round

/-- What is documented of all functions. -/
structure MathLibrary.Lawful (lib : MathLibrary) : Prop extends MathLibrary.Exact lib where
  /-- the root is rounded once -/
  sqrt : Follows lib.sqrt Single.sqrt
  elementary : ∀ f x, x.isNaN = true → (lib.elementary f x).isNaN = true
  atan2 : ∀ y x, y.isNaN = true ∨ x.isNaN = true → (lib.atan2 y x).isNaN = true
  /-- the zeroth power is one, that of a NaN included -/
  pow_zero : ∀ x y, y.magnitude = 0 → lib.pow x y = Single.one
  /-- one is its every power, also with a NaN for the exponent -/
  one_pow : ∀ y, lib.pow Single.one y = Single.one
  pow : ∀ x y, x.isNaN = true ∨ y.isNaN = true → x ≠ Single.one → y.magnitude ≠ 0 →
    (lib.pow x y).isNaN = true

end Wavefront
