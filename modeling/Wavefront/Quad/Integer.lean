import Wavefront.Quad.Mask
import Wavefront.Lane

/-!
# Four-lane integers

The unit compares signed words only, has no multiplication that keeps the low words and no division.
Unsigned order is signed order with the top bit flipped, `≤` and `≥` are the negated strict
comparisons, minimum and maximum select through a comparison, and division goes lane by lane.
-/

namespace Wavefront.Quad.Integer

/-! ## Comparisons -/

/-- Lanes with equal words. -/
def eq (a b : Quad) : QuadMask := QuadMask.compare (fun x y => x == y) a b

/-- Flips the top bits, which maps the unsigned order onto the signed one. -/
def biased (a : Quad) : Quad := Quad.xor a (Quad.splat 0x80000000)

/-- Lanes where `a` is less. -/
def lt (s : Signedness) (a b : Quad) : QuadMask :=
  match s with
  | .signed => QuadMask.compare BitVec.slt a b
  | .unsigned => QuadMask.compare BitVec.slt (biased a) (biased b)

/-- Lanes where `a` is greater. -/
def gt (s : Signedness) (a b : Quad) : QuadMask := lt s b a

/-- Lanes where `a` is not greater. -/
def le (s : Signedness) (a b : Quad) : QuadMask := (gt s a b).not

/-- Lanes where `a` is not less. -/
def ge (s : Signedness) (a b : Quad) : QuadMask := (lt s a b).not

/-- The lesser of each pair. -/
def min (s : Signedness) (a b : Quad) : Quad := Quad.blend (lt s a b).words a b

/-- The greater of each pair. -/
def max (s : Signedness) (a b : Quad) : Quad := Quad.blend (gt s a b).words a b

/-! ## Arithmetic -/

/-- Wrapping sums. -/
def add (a b : Quad) : Quad := Vector.zipWith (fun x y => x + y) a b

/-- Wrapping differences. -/
def sub (a b : Quad) : Quad := Vector.zipWith (fun x y => x - y) a b

/-- Wrapping products. -/
def mul (a b : Quad) : Quad := Quad.mulLow a b

/-- Applies a partial operation to every pair of lanes, from lane 0 on, in two buffers. -/
def zipLanes (f : Word → Word → Except Fault Word) (a b : Quad) : Except Fault Quad := do
  let slots := Quad.toBuffer a
  let values ← ((Quad.front slots).zip (Quad.front (Quad.toBuffer b))).mapM fun p => f p.1 p.2
  return Quad.ofBuffer (Quad.withFront slots values)

/-- Quotients. -/
def quotient (s : Signedness) (a b : Quad) : Except Fault Quad := zipLanes (Lane.quotient s) a b

/-- Remainders. -/
def remainder (s : Signedness) (a b : Quad) : Except Fault Quad := zipLanes (Lane.remainder s) a b

/-! ## Shifts: the unit takes the count as a 64-bit number -/

/-- Left shifts; counts past 31 leave nothing. -/
def shiftLeft (a : Quad) (count : Word) : Quad :=
  let count := count.setWidth 64
  if 31 < count.toNat then Quad.splat 0 else a.map fun (x : Word) => x <<< count.toNat

/-- Right shifts; counts past 31 leave nothing of unsigned words and only the sign of signed
ones. -/
def shiftRight (s : Signedness) (a : Quad) (count : Word) : Quad :=
  let count := count.setWidth 64
  match s with
  | .signed =>
    a.map fun (x : Word) =>
      if 31 < count.toNat then fill x.msb else x.sshiftRight count.toNat
  | .unsigned =>
    if 31 < count.toNat then Quad.splat 0 else a.map fun (x : Word) => x >>> count.toNat

end Wavefront.Quad.Integer
