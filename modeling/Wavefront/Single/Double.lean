import Wavefront.Single.Library

/-!
# A library by way of double precision

The library that programs are linked with here. A transcendental function widens its argument to
double precision, which is exact, takes the function there, and rounds the result once. The results
are those of the nearest value wherever double precision is close enough to tell.
-/

namespace Wavefront

/-- The function in double precision. -/
def Elementary.double : Elementary → Float → Float
  | sin => Float.sin
  | cos => Float.cos
  | tan => Float.tan
  | asin => Float.asin
  | acos => Float.acos
  | atan => Float.atan
  | sinh => Float.sinh
  | cosh => Float.cosh
  | tanh => Float.tanh
  | asinh => Float.asinh
  | acosh => Float.acosh
  | atanh => Float.atanh
  | exp => Float.exp
  | log => Float.log
  | exp2 => Float.exp2
  | log2 => Float.log2

namespace Single

/-- The same number in double precision. -/
def widen (x : Single) : Float := (Float32.ofBits (UInt32.ofBitVec x.bits)).toFloat

/-- The nearest single-precision value. -/
def narrow (x : Float) : Single := ofDouble x.toBits.toBitVec

end Single

/-- NaN arguments are passed on before anything is widened, as a double has one NaN only. -/
def MathLibrary.double : MathLibrary where
  abs := Single.abs
  sqrt := Single.sqrt
  floor := Single.floor
  ceil := Single.ceil
  trunc := Single.trunc
  round := Single.round
  elementary f x := if x.isNaN then x.quiet else Single.narrow (f.double x.widen)
  atan2 y x :=
    if y.isNaN || x.isNaN then Single.passOn y x
    else Single.narrow (Float.atan2 y.widen x.widen)
  pow x y :=
    if y.magnitude = 0 || x == Single.one then Single.one
    else if x.isNaN || y.isNaN then Single.passOn x y
    else Single.narrow (Float.pow x.widen y.widen)

end Wavefront
