import Wavefront.Quad.Float
import Wavefront.Single.Library

/-!
# Registers of a backend

A backend supplies one register type per kind and the operations on it. The *scalar* backend has
registers of a single lane and plain arithmetic. The *quad* backend has registers of four lanes on a
128-bit unit. `Reg B k` is the register of backend `B` for kind `k`, and `Reg.lane` is the view
through which both are read.

A register operation never looks beyond its own register, so a batch is computed register by
register.
-/

namespace Wavefront

/-- The two backends. -/
inductive Backend
  | scalar
  | quad
deriving DecidableEq

namespace Backend

/-- How many lanes a register has. -/
def lanes : Backend → Nat
  | scalar => 1
  | quad => 4

/-- The name of a backend in texts. -/
def name : Backend → String
  | scalar => "scalar"
  | quad => "sse2"

/-- The most lanes that a register of any backend may have: a buffer has a slot for each. -/
def maxLanes : Nat := Quad.bufferSlots

theorem lanes_pos (B : Backend) : 0 < B.lanes := by cases B <;> decide

theorem lanes_le_maxLanes (B : Backend) : B.lanes ≤ maxLanes := by cases B <;> decide

end Backend

/-- The register of a backend for a kind of lane. -/
abbrev Reg : Backend → Kind → Type
  | .scalar, k => k.Lane
  | .quad, .number _ => Quad
  | .quad, .bool => QuadMask

namespace Reg

variable {B : Backend} {k : Kind}

/-! ## Lanes -/

/-- The value of a lane. -/
def lane : {B : Backend} → {k : Kind} → Reg B k → Fin B.lanes → k.Lane
  | .scalar, _, r, _ => r
  | .quad, .number t, r, i => t.ofWord (Vector.get r i)
  | .quad, .bool, r, i => QuadMask.lane r i

/-- The register with the given lanes. -/
def ofFn : {B : Backend} → {k : Kind} → (Fin B.lanes → k.Lane) → Reg B k
  | .scalar, _, f => f ⟨0, by decide⟩
  | .quad, .number t, f => Vector.ofFn fun i : Fin 4 => t.toWord (f i)
  | .quad, .bool, f => QuadMask.ofFn f

/-- The same value in every lane. -/
def splat : {B : Backend} → {k : Kind} → k.Lane → Reg B k
  | .scalar, _, v => v
  | .quad, .number t, v => Quad.splat (t.toWord v)
  | .quad, .bool, v => QuadMask.splat v

/-- The lanes in order. -/
def toList (r : Reg B k) : List k.Lane := List.ofFn r.lane

/-! ## Slots

Memory that registers are moved to and from is a row of slots, one for each lane. It may go on
behind the lanes, as a buffer does that has room for the widest register of any backend. -/

/-- The register with the lanes at the front of a row of slots. -/
def ofFront (slots : List k.Lane) : Reg B k := ofFn fun i => slots.getD i.val k.zeroLane

/-- A row of slots with the lanes written to its front. -/
def intoFront (r : Reg B k) (slots : List k.Lane) : List k.Lane := r.toList ++ slots.drop B.lanes

/-- A buffer with zero or false in every slot. -/
def emptyBuffer (k : Kind) : List k.Lane := List.replicate Backend.maxLanes k.zeroLane

/-! ## Single lanes -/

/-- A lane by number. The wide number registers report a bad number as an array does. -/
def extract (r : Reg B k) (i : Nat) : Except Fault k.Lane :=
  if h : i < B.lanes then .ok (r.lane ⟨i, h⟩)
  -- an array in memory stands behind a wide register of numbers, a bitmask behind a wide mask
  else match B, k with
    | .quad, .number _ => .error (.indexOutOfBounds 4 i)
    | _, _ => .error (.registerLaneOutOfRange i)

/-- The register with one lane replaced, on a wide backend in a buffer. -/
def set : {B : Backend} → {k : Kind} → Reg B k → Fin B.lanes → k.Lane → Reg B k
  | .scalar, _, _, _, v => v
  | .quad, k, r, i, v => ofFront ((intoFront r (emptyBuffer k)).set i.val v)

/-- The register with the lane of that number replaced. -/
def insert (r : Reg B k) (i : Nat) (v : k.Lane) : Except Fault (Reg B k) :=
  if h : i < B.lanes then .ok (r.set ⟨i, h⟩ v) else .error (.registerLaneOutOfRange i)

/-! ## Memory -/

/-- The alignment that register accesses to memory need, in bytes. -/
def align : Backend → Kind → Nat
  | .scalar, k => k.bytes
  | .quad, .number _ => 16
  | .quad, .bool => 1

/-- The register with the first lanes of a list. -/
def load (source : List k.Lane) : Except Fault (Reg B k) :=
  if B.lanes ≤ source.length then .ok (ofFront source)
  else match B with
    | .scalar => .error (.indexOutOfBounds 0 0)
    | .quad => .error .shortSource

/-- A list with its first elements replaced by the lanes. -/
def store (r : Reg B k) (destination : List k.Lane) : Except Fault (List k.Lane) :=
  if B.lanes ≤ destination.length then .ok (r.intoFront destination)
  else match B with
    | .scalar => .error (.indexOutOfBounds 0 0)
    | .quad => .error .shortDestination

/-! ## Choice and equality, for every kind -/

/-- The lanes of `a` where the mask is true and those of `b` elsewhere. -/
def select : {B : Backend} → {k : Kind} → Reg B .bool → Reg B k → Reg B k → Reg B k
  | .scalar, _, m, a, b => if m then a else b
  | .quad, .number _, m, a, b => Quad.blend (QuadMask.words m) a b
  | .quad, .bool, m, a, b => QuadMask.select m a b

/-- Lanes that are equal. -/
def eq (mode : Denormals) : {B : Backend} → {k : Kind} → Reg B k → Reg B k → Reg B .bool
  | .scalar, _, a, b => Lane.eq mode a b
  | .quad, .number .float, a, b => Quad.Float.eq mode a b
  | .quad, .number (.integer _), a, b => Quad.Integer.eq a b
  | .quad, .bool, a, b => QuadMask.eq a b

/-! ## Masks -/

/-- Some lane is true. -/
def any : {B : Backend} → Reg B .bool → Bool
  | .scalar, m => m
  | .quad, m => QuadMask.any m

/-- Every lane is true. -/
def all : {B : Backend} → Reg B .bool → Bool
  | .scalar, m => m
  | .quad, m => QuadMask.all m

/-- Bit `i` is set when lane `i` is true. -/
def bitmask : {B : Backend} → Reg B .bool → Nat
  | .scalar, m => Bool.toNat m
  | .quad, m => QuadMask.bitmask m

/-- Lanes true in both. -/
def maskAnd : {B : Backend} → Reg B .bool → Reg B .bool → Reg B .bool
  | .scalar, a, b => Bool.and a b
  | .quad, a, b => QuadMask.and a b

/-- Lanes true in either. -/
def maskOr : {B : Backend} → Reg B .bool → Reg B .bool → Reg B .bool
  | .scalar, a, b => Bool.or a b
  | .quad, a, b => QuadMask.or a b

/-- Lanes true in exactly one. -/
def maskXor : {B : Backend} → Reg B .bool → Reg B .bool → Reg B .bool
  | .scalar, a, b => Bool.xor a b
  | .quad, a, b => QuadMask.xor a b

/-- Lanes that are false. -/
def maskNot : {B : Backend} → Reg B .bool → Reg B .bool
  | .scalar, a => Bool.not a
  | .quad, a => QuadMask.not a

/-- Lanes that differ, or of which one is NaN. Floats have a comparison of their own for it. -/
def ne (mode : Denormals) : {B : Backend} → {k : Kind} → Reg B k → Reg B k → Reg B .bool
  | .scalar, _, a, b => Bool.not (Lane.eq mode a b)
  | .quad, .number .float, a, b => Quad.Float.ne mode a b
  | .quad, .number (.integer _), a, b => QuadMask.not (Quad.Integer.eq a b)
  | .quad, .bool, a, b => QuadMask.xor a b

/-! ## Numbers -/

variable {t : Number}

/-- Lanes where the first is less. -/
def lt (mode : Denormals) :
    {B : Backend} → {t : Number} → Reg B (.number t) → Reg B (.number t) → Reg B .bool
  | .scalar, _, a, b => Lane.lt mode a b
  | .quad, .float, a, b => Quad.Float.lt mode a b
  | .quad, .integer s, a, b => Quad.Integer.lt s a b

/-- Lanes where the first is less or equal. -/
def le (mode : Denormals) :
    {B : Backend} → {t : Number} → Reg B (.number t) → Reg B (.number t) → Reg B .bool
  | .scalar, _, a, b => Lane.le mode a b
  | .quad, .float, a, b => Quad.Float.le mode a b
  | .quad, .integer s, a, b => Quad.Integer.le s a b

/-- Lanes where the first is greater. -/
def gt (mode : Denormals) :
    {B : Backend} → {t : Number} → Reg B (.number t) → Reg B (.number t) → Reg B .bool
  | .scalar, _, a, b => Lane.lt mode b a
  | .quad, .float, a, b => Quad.Float.gt mode a b
  | .quad, .integer s, a, b => Quad.Integer.gt s a b

/-- Lanes where the first is greater or equal. -/
def ge (mode : Denormals) :
    {B : Backend} → {t : Number} → Reg B (.number t) → Reg B (.number t) → Reg B .bool
  | .scalar, _, a, b => Lane.le mode b a
  | .quad, .float, a, b => Quad.Float.ge mode a b
  | .quad, .integer s, a, b => Quad.Integer.ge s a b

/-- The lesser of each pair; the second where they are equal or unordered. -/
def min : {B : Backend} → {t : Number} → Reg B (.number t) → Reg B (.number t) → Reg B (.number t)
  | .scalar, _, a, b => Lane.min a b
  | .quad, .float, a, b => Quad.Float.min a b
  | .quad, .integer s, a, b => Quad.Integer.min s a b

/-- The greater of each pair; the second where they are equal or unordered. -/
def max : {B : Backend} → {t : Number} → Reg B (.number t) → Reg B (.number t) → Reg B (.number t)
  | .scalar, _, a, b => Lane.max a b
  | .quad, .float, a, b => Quad.Float.max a b
  | .quad, .integer s, a, b => Quad.Integer.max s a b

/-- Sums. -/
def add (mode : Denormals) :
    {B : Backend} → {t : Number} → Reg B (.number t) → Reg B (.number t) → Reg B (.number t)
  | .scalar, _, a, b => Lane.add mode a b
  | .quad, .float, a, b => Quad.Float.add mode a b
  | .quad, .integer _, a, b => Quad.Integer.add a b

/-- Differences. -/
def sub (mode : Denormals) :
    {B : Backend} → {t : Number} → Reg B (.number t) → Reg B (.number t) → Reg B (.number t)
  | .scalar, _, a, b => Lane.sub mode a b
  | .quad, .float, a, b => Quad.Float.sub mode a b
  | .quad, .integer _, a, b => Quad.Integer.sub a b

/-- Products. -/
def mul (mode : Denormals) :
    {B : Backend} → {t : Number} → Reg B (.number t) → Reg B (.number t) → Reg B (.number t)
  | .scalar, _, a, b => Lane.mul mode a b
  | .quad, .float, a, b => Quad.Float.mul mode a b
  | .quad, .integer _, a, b => Quad.Integer.mul a b

/-! ## Integers -/

/-- Quotients toward zero. -/
def quotient : {B : Backend} → {s : Signedness} →
    Reg B (.number (.integer s)) → Reg B (.number (.integer s)) →
      Except Fault (Reg B (.number (.integer s)))
  | .scalar, s, a, b => Lane.quotient s a b
  | .quad, s, a, b => Quad.Integer.quotient s a b

/-- Remainders with the sign of the dividend. -/
def remainder : {B : Backend} → {s : Signedness} →
    Reg B (.number (.integer s)) → Reg B (.number (.integer s)) →
      Except Fault (Reg B (.number (.integer s)))
  | .scalar, s, a, b => Lane.remainder s a b
  | .quad, s, a, b => Quad.Integer.remainder s a b

/-- Bits set in both. -/
def and : {B : Backend} → {s : Signedness} →
    Reg B (.number (.integer s)) → Reg B (.number (.integer s)) → Reg B (.number (.integer s))
  | .scalar, _, a, b => BitVec.and a b
  | .quad, _, a, b => Quad.and a b

/-- Bits set in either. -/
def or : {B : Backend} → {s : Signedness} →
    Reg B (.number (.integer s)) → Reg B (.number (.integer s)) → Reg B (.number (.integer s))
  | .scalar, _, a, b => BitVec.or a b
  | .quad, _, a, b => Quad.or a b

/-- Bits set in exactly one. -/
def xor : {B : Backend} → {s : Signedness} →
    Reg B (.number (.integer s)) → Reg B (.number (.integer s)) → Reg B (.number (.integer s))
  | .scalar, _, a, b => BitVec.xor a b
  | .quad, _, a, b => Quad.xor a b

/-- Bits not set. -/
def not : {B : Backend} → {s : Signedness} →
    Reg B (.number (.integer s)) → Reg B (.number (.integer s))
  | .scalar, _, a => BitVec.not a
  | .quad, _, a => Quad.not a

/-- Left shifts. -/
def shiftLeft : {B : Backend} → {s : Signedness} →
    Reg B (.number (.integer s)) → Word → Reg B (.number (.integer s))
  | .scalar, _, a, count => Lane.shiftLeft a count
  | .quad, _, a, count => Quad.Integer.shiftLeft a count

/-- Right shifts, arithmetic for signed words. -/
def shiftRight : {B : Backend} → {s : Signedness} →
    Reg B (.number (.integer s)) → Word → Reg B (.number (.integer s))
  | .scalar, s, a, count => Lane.shiftRight s a count
  | .quad, s, a, count => Quad.Integer.shiftRight s a count

/-! ## Floats -/

/-- Quotients. -/
def div (mode : Denormals) : {B : Backend} → Reg B .float → Reg B .float → Reg B .float
  | .scalar, a, b => Single.div mode a b
  | .quad, a, b => Quad.Float.div mode a b

/-- Applies a function lane by lane. -/
def map (f : Single → Single) : {B : Backend} → Reg B .float → Reg B .float
  | .scalar, a => f a
  | .quad, a => Quad.Float.lanewise f a

/-- Applies a function to each pair of lanes. -/
def zip (f : Single → Single → Single) : {B : Backend} → Reg B .float → Reg B .float → Reg B .float
  | .scalar, a, b => f a b
  | .quad, a, b => Quad.Float.zipLanes f a b

/-- Without signs. -/
def abs (lib : MathLibrary) : {B : Backend} → Reg B .float → Reg B .float
  | .scalar, a => lib.abs a
  | .quad, a => Quad.Float.abs a

/-- With the other signs. -/
def neg : {B : Backend} → Reg B .float → Reg B .float
  | .scalar, a => Single.neg a
  | .quad, a => Quad.Float.neg a

/-- Square roots. -/
def sqrt (lib : MathLibrary) : {B : Backend} → Reg B .float → Reg B .float
  | .scalar, a => lib.sqrt a
  | .quad, a => Quad.Float.sqrt a

/-- To integers, toward negative infinity. -/
def floor (lib : MathLibrary) : {B : Backend} → Reg B .float → Reg B .float
  | .scalar, a => lib.floor a
  | .quad, a => Quad.Float.floor a

/-- To integers, toward zero. -/
def trunc (lib : MathLibrary) : {B : Backend} → Reg B .float → Reg B .float
  | .scalar, a => lib.trunc a
  | .quad, a => Quad.Float.trunc a

/-- To integers, toward positive infinity. -/
def ceil (lib : MathLibrary) : {B : Backend} → Reg B .float → Reg B .float
  | .scalar, a => lib.ceil a
  | .quad, a => Quad.Float.ceil a

/-- To the nearest integers, halves away from zero. -/
def round (lib : MathLibrary) : {B : Backend} → Reg B .float → Reg B .float
  | .scalar, a => lib.round a
  | .quad, a => Quad.Float.round a

/-- Differences across the columns of the tile. A single lane has no neighbour and differs by
zero. -/
def acrossColumns : {B : Backend} → Reg B .float → Reg B .float
  | .scalar, _ => Single.zero false
  | .quad, a => Quad.Float.acrossColumns a

/-- Differences across the rows of the tile. A single lane has no neighbour and differs by zero. -/
def acrossRows : {B : Backend} → Reg B .float → Reg B .float
  | .scalar, _ => Single.zero false
  | .quad, a => Quad.Float.acrossRows a

/-! ## Conversions -/

/-- The values carried to another kind. -/
def cast : {B : Backend} → {k : Kind} → (target : Kind) → Reg B k → Reg B target
  | .scalar, k, target, a => Lane.cast k target a
  | .quad, .number .float, .number .float, a => a
  | .quad, .int, .number .float, a => Quad.Float.ofSigned a
  | .quad, .uint, .number .float, a => Quad.Float.ofUnsigned a
  | .quad, .bool, .number .float, a => Quad.and (QuadMask.words a) (Quad.Float.splat Single.one)
  | .quad, .number .float, .int, a => Quad.Float.toSigned a
  | .quad, .number .float, .uint, a => Quad.Float.toUnsigned a
  | .quad, .number (.integer _), .number (.integer _), a => a
  | .quad, .bool, .number (.integer _), a => Quad.and (QuadMask.words a) (Quad.splat 1)
  | .quad, .number .float, .bool, a => Quad.Float.ne .keep a (Quad.Float.splat (Single.zero false))
  | .quad, .number (.integer _), .bool, a => QuadMask.not (Quad.Integer.eq a (Quad.splat 0))
  | .quad, .bool, .bool, a => a

/-- The patterns of floats as integers. -/
def toBits : {B : Backend} → {s : Signedness} → Reg B .float → Reg B (.number (.integer s))
  | .scalar, _, a => Single.bits a
  | .quad, _, a => a

/-- The floats with the given patterns. -/
def ofBits : {B : Backend} → {s : Signedness} → Reg B (.number (.integer s)) → Reg B .float
  | .scalar, _, a => ⟨a⟩
  | .quad, _, a => a

/-! ## Text -/

/-- The four low bits of a number, highest first. -/
def bitsText (n : Nat) : String :=
  String.ofList ([3, 2, 1, 0].map fun i => if n.testBit i then '1' else '0')

/-- The text of a register: its type and its lanes, for a wide mask its bitmask. -/
def text : {B : Backend} → {k : Kind} → Reg B k → String
  | .scalar, .number .float, r => "ScalarF32(" ++ Lane.text .float r ++ ")"
  | .scalar, .int, r => "ScalarI32(" ++ Lane.text .int r ++ ")"
  | .scalar, .uint, r => "ScalarU32(" ++ Lane.text .uint r ++ ")"
  | .scalar, .bool, r => "ScalarMask(" ++ Lane.text .bool r ++ ")"
  | .quad, .number .float, r => "F32x4(" ++ Lane.listText .float (toList r) ++ ")"
  | .quad, .int, r => "I32x4(" ++ Lane.listText .int (toList r) ++ ")"
  | .quad, .uint, r => "U32x4(" ++ Lane.listText .uint (toList r) ++ ")"
  | .quad, .bool, r => "Mask4(" ++ bitsText (QuadMask.bitmask r) ++ ")"

end Reg

end Wavefront
