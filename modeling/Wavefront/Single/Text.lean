import Wavefront.Single.Decimal

/-!
# The text of a single-precision value

Finite values are written with their shortest digits: positionally, with at least one digit after
the point, from `1e-4` up to but not including `1e16`, and with an exponent beyond. Zeros keep their
sign.
-/

namespace Wavefront.Single

/-- The least exponent of a first digit that is written positionally. -/
def positionalFrom : Int := -4

/-- The least exponent of a first digit, above the positional ones, that is written with an
exponent. -/
def positionalBelow : Int := 16

/-- A run of zeros. -/
def zeros (count : Nat) : String := String.ofList (List.replicate count '0')

/-- The digits with a point at the place the exponent says. -/
def positionalText (d : Decimal) : String :=
  let digits := (toString d.digits).toList
  if 0 ≤ d.exponent then String.ofList digits ++ zeros d.exponent.toNat ++ ".0"
  else
    let places := (-d.exponent).toNat
    if places < digits.length then
      String.ofList (digits.take (digits.length - places)) ++ "."
        ++ String.ofList (digits.drop (digits.length - places))
    else "0." ++ zeros (places - digits.length) ++ String.ofList digits

/-- The first digit, the others after a point if there are any, and the exponent of the first. -/
def exponentText (d : Decimal) : String :=
  let digits := (toString d.digits).toList
  let others := digits.drop 1
  String.ofList (digits.take 1) ++ (if others.isEmpty then "" else "." ++ String.ofList others)
    ++ "e" ++ toString d.leadingExponent

/-- The text of a positive finite magnitude. -/
def magnitudeText (magnitude : Nat) : String :=
  if magnitude = 0 then "0.0"
  else
    let d := shortest magnitude
    if positionalFrom ≤ d.leadingExponent && d.leadingExponent < positionalBelow then
      positionalText d
    else exponentText d

/-- The text of a value. NaN has no sign. -/
def text (x : Single) : String :=
  if x.isNaN then "NaN"
  else
    (if x.negative then "-" else "")
      ++ (if x.isInfinite then "inf" else magnitudeText x.magnitude)

end Wavefront.Single
