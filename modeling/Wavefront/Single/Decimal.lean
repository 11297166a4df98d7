import Wavefront.Single.Basic

/-!
# The shortest decimal that reads back

Every finite positive value is the nearest single-precision value of a whole interval of reals.
`shortest` answers a decimal of the fewest digits in that interval, and of those the nearest to the
value. For each count of digits only the two neighbours of the value on that decimal grid have to be
looked at: if any point of the grid lies in the interval, one of them does. All comparisons are
exact, on natural numbers.
-/

namespace Wavefront

/-- The number `digits * 10 ^ exponent`. -/
structure Decimal where
  digits : Nat
  exponent : Int
deriving DecidableEq

namespace Decimal

/-- How many digits a number is written with. -/
def digitCount (n : Nat) : Nat := (Nat.toDigits 10 n).length

/-- The exponent of the first digit. -/
def leadingExponent (d : Decimal) : Int := d.exponent + digitCount d.digits - 1

/-- Moves up to `count` trailing zeros from the digits into the exponent. -/
def trim : (count : Nat) → Decimal → Decimal
  | 0, d => d
  | count + 1, d =>
    if d.digits ≠ 0 ∧ d.digits % 10 = 0 then trim count ⟨d.digits / 10, d.exponent + 1⟩ else d

end Decimal

namespace Single

/-- The exponent of the first decimal digit of `units * 2^-149`. Scaling by `10^50` brings every
value above 1 and leaves the place of its first digit. -/
def firstDigitExponent (units : Nat) : Int :=
  (Decimal.digitCount (units * Nat.pow 10 50 / unitsPerOne) : Int) - 51

/-- Whether the decimal is rounded to the given magnitude when read: it lies between the midpoints
to the two neighbouring magnitudes, or on one of them when the magnitude is even. -/
def readsBack (magnitude : Nat) (d : Decimal) : Bool :=
  let low := (unitsOf (magnitude - 1) + unitsOf magnitude) * Nat.pow 10 (-d.exponent).toNat
  let high := (unitsOf magnitude + unitsOf (magnitude + 1)) * Nat.pow 10 (-d.exponent).toNat
  let point := 2 * d.digits * Nat.pow 10 d.exponent.toNat * unitsPerOne
  if magnitude % 2 = 0 then low ≤ point && point ≤ high else low < point && point < high

/-- The nearest decimal with the given exponent that reads back, if there is one. Of two equally
near ones it is the larger. -/
def decimalAt? (magnitude : Nat) (exponent : Int) : Option Decimal :=
  let num := unitsOf magnitude * Nat.pow 10 (-exponent).toNat
  let den := Nat.pow 10 exponent.toNat * unitsPerOne
  let below : Decimal := ⟨num / den, exponent⟩
  let above : Decimal := ⟨num / den + 1, exponent⟩
  match readsBack magnitude below, readsBack magnitude above with
  | true, true => some (if 2 * (num % den) < den then below else above)
  | true, false => some below
  | false, true => some above
  | false, false => none

/-- The shortest decimal that reads back as the given magnitude, which is neither zero nor infinite.
Nine digits always suffice. -/
def shortest (magnitude : Nat) : Decimal :=
  let first := firstDigitExponent (unitsOf magnitude)
  let found := (List.range 9).findSome? fun (more : Nat) => decimalAt? magnitude (first - more)
  (found.getD ⟨0, 0⟩).trim 9

end Single

end Wavefront
