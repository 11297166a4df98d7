import Wavefront.Word

/-!
# Four words side by side

A `Quad` is what a 128-bit vector register holds: four words. The operations here are the ones such
a unit has for every content: bitwise logic, a lane-wise comparison that fills lanes, moves of whole
lanes, the collection of the four sign bits, and a multiplication that widens and looks at two of
the four lanes only. Everything else that the four-lane registers do is put together from these.
-/

namespace Wavefront

/-- Four words, lane 0 first. -/
abbrev Quad := Vector Word 4

namespace Quad

/-- The same word in every lane. -/
def splat (w : Word) : Quad := Vector.replicate 4 w

/-- The quad with the given words, the highest lane first. -/
def ofWords (w3 w2 w1 w0 : Word) : Quad := #v[w0, w1, w2, w3]

/-- The quad with the given lanes. -/
def ofLanes (f : Fin 4 → Word) : Quad := ofWords (f 3) (f 2) (f 1) (f 0)

/-! ## Bitwise logic -/

/-- Bits set in both. -/
def and (a b : Quad) : Quad := Vector.zipWith (fun x y => x &&& y) a b

/-- Bits set in either. -/
def or (a b : Quad) : Quad := Vector.zipWith (fun x y => x ||| y) a b

/-- Bits set in exactly one. -/
def xor (a b : Quad) : Quad := Vector.zipWith (fun x y => x ^^^ y) a b

/-- Bits of `b` that are not set in `a`. -/
def without (a b : Quad) : Quad := Vector.zipWith (fun x y => ~~~x &&& y) a b

/-- The complement, by exclusive or with all ones. -/
def not (a : Quad) : Quad := xor a (splat (BitVec.allOnes 32))

/-- The bits of `a` where `mask` has ones and the bits of `b` elsewhere. -/
def blend (mask a b : Quad) : Quad := or (and mask a) (without mask b)

/-! ## Comparison -/

/-- Fills the lanes where the relation holds. -/
def compare (relation : Word → Word → Bool) (a b : Quad) : Quad :=
  Vector.zipWith (fun x y => fill (relation x y)) a b

/-- The sign bits, lane 0 lowest. -/
def signs (a : Quad) : Nat :=
  a[0].msb.toNat + 2 * a[1].msb.toNat + 4 * a[2].msb.toNat + 8 * a[3].msb.toNat

/-! ## Moves -/

/-- The lanes with the given numbers. -/
def shuffle (i j k l : Fin 4) (a : Quad) : Quad := #v[a.get i, a.get j, a.get k, a.get l]

/-- Lanes 0 and 2, the left ones of a tile of two rows, in both places of their row. -/
def leftColumn (a : Quad) : Quad := shuffle 0 0 2 2 a

/-- Lanes 1 and 3, the right ones of a tile of two rows, in both places of their row. -/
def rightColumn (a : Quad) : Quad := shuffle 1 1 3 3 a

/-- Lanes 0 and 1, the first row of a tile of two rows, in both rows. -/
def upperRow (a : Quad) : Quad := shuffle 0 1 0 1 a

/-- Lanes 2 and 3, the second row of a tile of two rows, in both rows. -/
def lowerRow (a : Quad) : Quad := shuffle 2 3 2 3 a

/-- The two low lanes of both, in turn. -/
def interleaveLow (a b : Quad) : Quad := #v[a[0], b[0], a[1], b[1]]

/-! ## Lane by lane

What the unit has no operation for is done on values in memory. The register is stored to the front
of a buffer that has room for the widest register of any unit, the slots of the lanes are computed
one after the other, and the register is loaded from the front again. -/

/-- How many slots such a buffer has. -/
def bufferSlots : Nat := 16

/-- The buffer after the store: the lanes, and zeros behind them. -/
def toBuffer (a : Quad) : List Word := a.toList ++ List.replicate (bufferSlots - 4) 0

/-- The register at the front of a buffer. -/
def ofBuffer (slots : List Word) : Quad := Vector.ofFn fun (i : Fin 4) => slots.getD i.val 0

/-- The slots of a buffer that hold lanes. -/
def front (slots : List Word) : List Word := slots.take 4

/-- The buffer with other values in the slots that hold lanes. -/
def withFront (slots values : List Word) : List Word := values ++ slots.drop 4

/-! ## Widening multiplication -/

/-- The full product of two unsigned words. -/
def product (x y : Word) : BitVec 64 := x.setWidth 64 * y.setWidth 64

/-- The full products of lanes 0 and of lanes 2, each as a low and a high word. -/
def mulEven (a b : Quad) : Quad :=
  let first := product a[0] b[0]
  let second := product a[2] b[2]
  #v[first.setWidth 32, (first >>> 32).setWidth 32, second.setWidth 32, (second >>> 32).setWidth 32]

/-- The low words of all four products: the even lanes are multiplied in place, the odd ones after a
move to the even places, and the low words of both are put back in turn. -/
def mulLow (a b : Quad) : Quad :=
  let even := mulEven a b
  let odd := mulEven (rightColumn a) (rightColumn b)
  interleaveLow (shuffle 0 2 0 0 even) (shuffle 0 2 0 0 odd)

/-! ## The lane view -/

/-- Quads with the same lanes are the same. -/
theorem ext_get {a b : Quad} (h : ∀ i, a.get i = b.get i) : a = b :=
  Vector.ext fun i hi => h ⟨i, hi⟩

@[simp] theorem get_splat (w : Word) (i : Fin 4) : (splat w).get i = w :=
  Vector.getElem_replicate i.isLt

@[simp] theorem get_ofLanes (f : Fin 4 → Word) (i : Fin 4) : (ofLanes f).get i = f i := by
  match i with
  | 0 => rfl
  | 1 => rfl
  | 2 => rfl
  | 3 => rfl

@[simp] theorem get_and (a b : Quad) (i : Fin 4) : (and a b).get i = a.get i &&& b.get i :=
  Vector.getElem_zipWith i.isLt

@[simp] theorem get_or (a b : Quad) (i : Fin 4) : (or a b).get i = a.get i ||| b.get i :=
  Vector.getElem_zipWith i.isLt

@[simp] theorem get_xor (a b : Quad) (i : Fin 4) : (xor a b).get i = a.get i ^^^ b.get i :=
  Vector.getElem_zipWith i.isLt

@[simp] theorem get_without (a b : Quad) (i : Fin 4) :
    (without a b).get i = ~~~a.get i &&& b.get i :=
  Vector.getElem_zipWith i.isLt

@[simp] theorem get_not (a : Quad) (i : Fin 4) : (not a).get i = ~~~a.get i := by
  rw [not, get_xor, get_splat, BitVec.xor_allOnes]

@[simp] theorem get_compare (relation : Word → Word → Bool) (a b : Quad) (i : Fin 4) :
    (compare relation a b).get i = fill (relation (a.get i) (b.get i)) :=
  Vector.getElem_zipWith i.isLt

end Quad

end Wavefront
