import Wavefront.Batch.Select

/-!
# Rounding and remainders of float batches

The rounding directions of a register, and what is built from them: rounding halves to even, the
fractional part, the split into two parts, and the floored remainder. All of it is ordinary batch
arithmetic, with one rounding for each operation.
-/

namespace Wavefront.Batch

variable {B : Backend} {n : Nat} (lib : MathLibrary)

/-! ## To integers -/

/-- Toward negative infinity. -/
def floor (x : Batch B .float n) : Batch B .float n := x.mapRegs (Reg.floor lib)

/-- Toward zero. -/
def trunc (x : Batch B .float n) : Batch B .float n := x.mapRegs (Reg.trunc lib)

/-- Toward positive infinity. -/
def ceil (x : Batch B .float n) : Batch B .float n := x.mapRegs (Reg.ceil lib)

/-- To the nearest integer, halves away from zero. -/
def round (x : Batch B .float n) : Batch B .float n := x.mapRegs (Reg.round lib)

/-- What is above the floor. -/
def fract (x : Batch B .float n) : Batch B .float n := x - x.floor lib

/-- Lanes that look half way between two integers. -/
def ties (x : Batch B .float n) : Mask B n := (x.fract lib).cmpEq .keep (splat Single.half)

/-- The tie lanes rounded: an even integer part stays, an odd one moves one step away from zero. -/
def tiesToEven (x : Batch B .float n) : Batch B .float n :=
  let whole := x.trunc lib
  let isEven := ((whole * splat Single.half).trunc lib * splat Single.two).cmpEq .keep whole
  let step := (splat Single.one).assignMasked (x.cmpLe .keep zeros) (splat Single.one.neg)
  whole.assignMasked (~~~isEven) (whole + step)

/-- To the nearest integer, halves to the even one. Without a tie anywhere this is `round`. -/
def roundEven (x : Batch B .float n) : Batch B .float n :=
  let tie := x.ties lib
  if Mask.none tie then x.round lib else (x.round lib).assignMasked tie (x.tiesToEven lib)

/-! ## Classification -/

/-- Lanes that are NaN: those that differ from themselves. -/
def isNaN (x : Batch B .float n) : Mask B n := zipRegs (Reg.ne .keep) x x

/-- Without signs. -/
def abs (x : Batch B .float n) : Batch B .float n := x.mapRegs (Reg.abs lib)

/-- Lanes that are infinite. -/
def isInfinite (x : Batch B .float n) : Mask B n :=
  (x.abs lib).cmpEq .keep (splat (Single.infinity false))

/-! ## Remainders -/

/-- The integer part: the value toward zero. -/
def modfWhole (x : Batch B .float n) : Batch B .float n := x.trunc lib

/-- What the integer part leaves, and zero for infinite lanes. -/
def modfFract (x : Batch B .float n) : Batch B .float n :=
  (x - x.trunc lib).assignMasked (x.isInfinite lib) zeros

/-- The remainder of the floored quotient. -/
def modulo (x y : Batch B .float n) : Batch B .float n := x - y * (x / y).floor lib

end Wavefront.Batch
