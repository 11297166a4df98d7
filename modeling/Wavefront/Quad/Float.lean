import Wavefront.Quad.Integer

/-!
# Four-lane floats

The unit adds, subtracts, multiplies, divides, takes square roots and compares, each lane as one
rounded operation. It has no rounding to integers and converts between floats and signed words only,
answering `0x80000000` for what does not fit. Truncation, floor, ceiling, rounding, and the
conversions that clamp or are unsigned are put together from that and from bit moves.

The four lanes are also a tile of two rows and two columns: lanes 0 and 1 above lanes 2 and 3.
Derivatives are the differences across the tile.
-/

namespace Wavefront.Quad.Float

/-! ## Operations of the unit -/

/-- Applies a function to the value in every lane. -/
def map (f : Single → Single) (a : Quad) : Quad := Vector.map (fun x => (f ⟨x⟩).bits) a

/-- Applies a function to the values in every pair of lanes. -/
def zip (f : Single → Single → Single) (a b : Quad) : Quad :=
  Vector.zipWith (fun x y => (f ⟨x⟩ ⟨y⟩).bits) a b

/-- Compares the values in every pair of lanes. -/
def compare (relation : Single → Single → Bool) (a b : Quad) : QuadMask :=
  QuadMask.compare (fun x y => relation ⟨x⟩ ⟨y⟩) a b

/-- The same value in every lane. -/
def splat (x : Single) : Quad := Quad.splat x.bits

/-- Sums. -/
def add (mode : Denormals) (a b : Quad) : Quad := zip (Single.add mode) a b

/-- Differences. -/
def sub (mode : Denormals) (a b : Quad) : Quad := zip (Single.sub mode) a b

/-- Products. -/
def mul (mode : Denormals) (a b : Quad) : Quad := zip (Single.mul mode) a b

/-- Quotients. -/
def div (mode : Denormals) (a b : Quad) : Quad := zip (Single.div mode) a b

/-- Square roots. -/
def sqrt (a : Quad) : Quad := map Single.sqrt a

/-- Lanes with equal numbers. -/
def eq (mode : Denormals) (a b : Quad) : QuadMask := compare (Single.eq mode) a b

/-- Lanes with different numbers, and lanes where either is NaN. -/
def ne (mode : Denormals) (a b : Quad) : QuadMask := compare (fun x y => !Single.eq mode x y) a b

/-- Lanes where `a` is less. -/
def lt (mode : Denormals) (a b : Quad) : QuadMask := compare (Single.lt mode) a b

/-- Lanes where `a` is less or equal. -/
def le (mode : Denormals) (a b : Quad) : QuadMask := compare (Single.le mode) a b

/-- Lanes where `a` is greater. -/
def gt (mode : Denormals) (a b : Quad) : QuadMask := compare (fun x y => Single.lt mode y x) a b

/-- Lanes where `a` is greater or equal. -/
def ge (mode : Denormals) (a b : Quad) : QuadMask := compare (fun x y => Single.le mode y x) a b

/-- Lanes where `a` is not less, which includes those where either is NaN. -/
def notLess (a b : Quad) : QuadMask := compare (fun x y => !Single.lt .keep x y) a b

/-- Lanes where neither is NaN. -/
def ordered (a b : Quad) : QuadMask := compare (fun x y => !x.isNaN && !y.isNaN) a b

/-- The lesser of each pair; `b` where they are equal or unordered. -/
def min (a b : Quad) : Quad := zip (fun x y => if Single.lt .keep x y then x else y) a b

/-- The greater of each pair; `b` where they are equal or unordered. -/
def max (a b : Quad) : Quad := zip (fun x y => if Single.lt .keep y x then x else y) a b

/-- Signed words to the nearest floats. -/
def ofSigned (a : Quad) : Quad := Vector.map (fun x => (Single.ofInt x.toInt).bits) a

/-- One value cut toward zero, as a signed word; `0x80000000` if it does not fit, as for infinities
and NaN. -/
def cut (x : Single) : Word :=
  if x.isFinite && -0x80000000 ≤ x.wholePart && x.wholePart < 0x80000000 then
    BitVec.ofInt 32 x.wholePart
  else 0x80000000

/-- Values cut toward zero, as signed words. -/
def toSignedCut (a : Quad) : Quad := Vector.map (fun x => cut ⟨x⟩) a

/-! ## Lane by lane, where the unit has no operation -/

/-- Applies a function to the value in every lane, in a buffer. -/
def lanewise (f : Single → Single) (a : Quad) : Quad :=
  let slots := Quad.toBuffer a
  Quad.ofBuffer (Quad.withFront slots ((Quad.front slots).map fun x => (f ⟨x⟩).bits))

/-- Applies a function to the values in every pair of lanes, in two buffers. -/
def zipLanes (f : Single → Single → Single) (a b : Quad) : Quad :=
  let slots := Quad.toBuffer a
  let values :=
    List.zipWith (fun x y => (f ⟨x⟩ ⟨y⟩).bits) (Quad.front slots) (Quad.front (Quad.toBuffer b))
  Quad.ofBuffer (Quad.withFront slots values)

/-! ## Bit moves -/

/-- Clears the sign bits. -/
def abs (a : Quad) : Quad := Quad.and a (Quad.splat 0x7fffffff)

/-- Flips the sign bits. -/
def neg (a : Quad) : Quad := Quad.xor a (Quad.splat 0x80000000)

/-! ## Rounding to integers -/

/-- Toward zero, by way of signed words. From `2^23` on every value is integral already and is kept,
as NaN is. Zero results get the sign back that the way through integers lost. -/
def trunc (a : Quad) : Quad :=
  let converted := ofSigned (toSignedCut a)
  let keep := notLess (abs a) (splat ⟨0x4b000000⟩)
  -- the sign bit is set already wherever the value was kept or the result is not zero
  let cutOrKept := Quad.blend keep.words a converted
  Quad.or cutOrKept (Quad.and a (Quad.splat 0x80000000))

/-- Toward negative infinity: one less than the truncation where that is above the value. -/
def floor (a : Quad) : Quad :=
  let whole := trunc a
  sub .keep whole (Quad.and (lt .keep a whole).words (splat Single.one))

/-- Toward positive infinity: the floor, mirrored. -/
def ceil (a : Quad) : Quad := neg (floor (neg a))

/-- To the nearest integer, halves away from zero: one step further out than the truncation where at
least half is missing. -/
def round (a : Quad) : Quad :=
  let whole := trunc a
  let far := ge .keep (abs (sub .keep a whole)) (splat Single.half)
  let below := (lt .keep a (splat (Single.zero false))).words
  let away := Quad.blend below (splat Single.one.neg) (splat Single.one)
  Quad.blend far.words (add .keep whole away) whole

/-! ## Conversions -/

/-- `2^31`. -/
def twoTo31 : Single := ⟨0x4f000000⟩

/-- `2^32`. -/
def twoTo32 : Single := ⟨0x4f800000⟩

/-- To signed words, clamped. What does not fit below is right already; what does not fit above
becomes the largest word, and NaN becomes 0. -/
def toSigned (a : Quad) : Quad :=
  let tooBig := (ge .keep a (splat twoTo31)).words
  let saturated :=
    Quad.or (Quad.without tooBig (toSignedCut a)) (Quad.and tooBig (Quad.splat 0x7fffffff))
  Quad.and saturated (ordered a a).words

/-- To unsigned words, clamped. The maximum with zero removes negative values and NaN; values from
`2^31` on are converted `2^31` lower, with the top bit flipped afterwards; from `2^32` on all bits
are set. -/
def toUnsigned (a : Quad) : Quad :=
  -- the maximum answers its second operand for NaN, which is why zero comes second
  let x := max a (splat (Single.zero false))
  let high := (ge .keep x (splat twoTo31)).words
  let beyond := (ge .keep x (splat twoTo32)).words
  let highPart := Quad.xor (toSignedCut (sub .keep x (splat twoTo31))) (Quad.splat 0x80000000)
  Quad.or (Quad.or (Quad.without high (toSignedCut x)) (Quad.and high highPart)) beyond

/-- Unsigned words to the nearest floats. The two halves of a word are converted exactly, and so is
the scaling of the upper one, so that only the final sum rounds. -/
def ofUnsigned (a : Quad) : Quad :=
  let low := Quad.and a (Quad.splat 0xffff)
  let high := Integer.shiftRight .unsigned a 16
  add .keep (mul .keep (ofSigned high) (splat ⟨0x47800000⟩)) (ofSigned low)

/-! ## Derivatives -/

/-- Horizontal differences: in each row, the right lane less the left one. -/
def acrossColumns (a : Quad) : Quad :=
  sub .keep (Quad.rightColumn a) (Quad.leftColumn a)

/-- Vertical differences: in each column, the lower lane less the upper one. -/
def acrossRows (a : Quad) : Quad :=
  sub .keep (Quad.lowerRow a) (Quad.upperRow a)

end Wavefront.Quad.Float
