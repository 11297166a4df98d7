import Wavefront.Batch.Rounding

/-!
# Built-in functions of batches

The functions of a shading language on one component: signs and steps, blends, geometry,
derivatives, angles, roots and elementary functions. Where a function takes several arguments, the
first one is the batch it is called on, so `edge.step x` compares `x` with the edge.
-/

namespace Wavefront.Batch

variable {B : Backend} {n : Nat}

/-! ## Signs and steps -/

/-- -1, 0 or 1. Both zeros and NaN give 0. -/
def sign (x : Batch B .float n) : Batch B .float n :=
  (x.cmpGt .keep zeros).cast .float - (x.cmpLt .keep zeros).cast .float

/-- The absolute value of signed words; the least word is its own. -/
def wordAbs (x : Batch B .int n) : Batch B .int n := (-x).assignMasked (x.cmpGe .keep zeros) x

/-- -1, 0 or 1 for signed words. -/
def wordSign (x : Batch B .int n) : Batch B .int n :=
  (x.cmpGt .keep zeros).cast .int - (x.cmpLt .keep zeros).cast .int

/-- 1 where `x` is beyond the edge, else 0. -/
def step (edge x : Batch B .float n) : Batch B .float n := (x.cmpGt .keep edge).cast .float

/-! ## Blends -/

/-- The blend `x * (1 - a) + y * a`. -/
def mix (x y a : Batch B .float n) : Batch B .float n := x * (splat Single.one - a) + y * a

/-- The position of `x` between two edges, clamped to the range from 0 to 1. -/
def ramp (edge0 edge1 x : Batch B .float n) : Batch B .float n :=
  ((x - edge0) / (edge1 - edge0)).clamp zeros (splat Single.one)

/-- A smooth step between two edges: `t * t * (3 - 2 * t)` of the position. -/
def smoothstep (edge0 edge1 x : Batch B .float n) : Batch B .float n :=
  let t := ramp edge0 edge1 x
  t * t * (splat Single.three - splat Single.two * t)

/-! ## Geometry on one component -/

/-- The length of a vector of one component: its absolute value. -/
def length (lib : MathLibrary) (x : Batch B .float n) : Batch B .float n := x.abs lib

/-- The length of a difference. -/
def distance (lib : MathLibrary) (x y : Batch B .float n) : Batch B .float n := (x - y).abs lib

/-- The inner product: the product. -/
def dot (x y : Batch B .float n) : Batch B .float n := x * y

/-- 1 for positive lanes and -1 for all others. -/
def normalize (x : Batch B .float n) : Batch B .float n :=
  zeros.step x * splat Single.two - splat Single.one

/-- The normal where the incident direction meets the reference from its front, else the
opposite. -/
def faceforward (normal incident reference : Batch B .float n) : Batch B .float n :=
  (-normal).assignMasked ((reference.dot incident).cmpLt .keep zeros) normal

/-- The incident direction reflected: `i - 2 * dot(n, i) * n`. -/
def reflect (incident normal : Batch B .float n) : Batch B .float n :=
  incident - splat Single.two * normal.dot incident * normal

/-- Square roots. -/
def sqrt (lib : MathLibrary) (x : Batch B .float n) : Batch B .float n := x.mapRegs (Reg.sqrt lib)

/-- The incident direction refracted with a ratio of indices; 0 where it is reflected totally. -/
def refract (lib : MathLibrary) (incident normal eta : Batch B .float n) : Batch B .float n :=
  let d := normal.dot incident
  let k := splat Single.one - eta * eta * (splat Single.one - d * d)
  let refracted := eta * incident - (eta * d + k.sqrt lib) * normal
  refracted.assignMasked (k.cmpLt .keep zeros) zeros

/-! ## Derivatives across the tile of a register -/

/-- Right column less left column. -/
def dfdx (x : Batch B .float n) : Batch B .float n := x.mapRegs Reg.acrossColumns

/-- Lower row less upper row. -/
def dfdy (x : Batch B .float n) : Batch B .float n := x.mapRegs Reg.acrossRows

/-- The sum of both absolute derivatives. -/
def fwidth (lib : MathLibrary) (x : Batch B .float n) : Batch B .float n :=
  x.dfdx.abs lib + x.dfdy.abs lib

/-! ## Angles, roots and elementary functions -/

/-- π / 180, in single precision. -/
def radiansPerDegree : Single := Single.div .keep ⟨0x40490fdb⟩ ⟨0x43340000⟩

/-- 180 / π, in single precision. -/
def degreesPerRadian : Single := Single.div .keep ⟨0x43340000⟩ ⟨0x40490fdb⟩

/-- Degrees to radians. -/
def radians (x : Batch B .float n) : Batch B .float n := x * splat radiansPerDegree

/-- Radians to degrees. -/
def degrees (x : Batch B .float n) : Batch B .float n := x * splat degreesPerRadian

/-- One over the square root. -/
def inverseSqrt (lib : MathLibrary) (x : Batch B .float n) : Batch B .float n :=
  splat Single.one / x.sqrt lib

/-- A transcendental function of one argument, lane by lane. -/
def elementary (lib : MathLibrary) (f : Elementary) (x : Batch B .float n) : Batch B .float n :=
  x.mapRegs (Reg.map (lib.elementary f))

/-- The angles of the points `(x, y)`. -/
def atan2 (lib : MathLibrary) (y x : Batch B .float n) : Batch B .float n :=
  zipRegs (Reg.zip lib.atan2) y x

/-- Powers. -/
def pow (lib : MathLibrary) (x y : Batch B .float n) : Batch B .float n :=
  zipRegs (Reg.zip lib.pow) x y

end Wavefront.Batch
