import Wavefront.Single.Convert

/-!
# Kinds of lane

A lane holds a float, a signed or unsigned 32-bit integer, or a truth value. Floats and integers are
*numbers*: they have arithmetic and an order. The kind is an index of every type built from lanes,
so an operation that only some kinds have is only defined on those.

Integers of both signs are carried by the same words; what differs is how an operation reads them.
-/

namespace Wavefront

/-- How an integer lane reads its word. -/
inductive Signedness
  | signed
  | unsigned
deriving DecidableEq

/-- The kinds that have arithmetic and an order. -/
inductive Number
  | float
  | integer (s : Signedness)
deriving DecidableEq

/-- The kinds of lane. -/
inductive Kind
  | number (t : Number)
  | bool
deriving DecidableEq

namespace Kind

/-- Single-precision floats. -/
@[match_pattern] abbrev float : Kind := .number .float

/-- Signed integers. -/
@[match_pattern] abbrev int : Kind := .number (.integer .signed)

/-- Unsigned integers. -/
@[match_pattern] abbrev uint : Kind := .number (.integer .unsigned)

/-- The kinds, in the order they are listed in. -/
def all : List Kind := [float, int, uint, bool]

/-- The name of a kind in texts. -/
def name : Kind → String
  | float => "f32"
  | int => "i32"
  | uint => "u32"
  | bool => "bool"

/-- What one lane of the kind holds. -/
abbrev Lane : Kind → Type
  | .number .float => Single
  | .number (.integer _) => Word
  | .bool => Bool

/-- The bytes one lane takes in memory. -/
def bytes : Kind → Nat
  | .number _ => 4
  | .bool => 1

/-- The lane value that fresh batches and memories hold: zero or false. -/
def zeroLane : (k : Kind) → k.Lane
  | .number .float => Single.zero false
  | .number (.integer _) => 0
  | .bool => false

end Kind

instance (k : Kind) : Inhabited k.Lane := ⟨k.zeroLane⟩

instance : (k : Kind) → DecidableEq k.Lane
  | .number .float => inferInstanceAs (DecidableEq Single)
  | .number (.integer _) => inferInstanceAs (DecidableEq Word)
  | .bool => inferInstanceAs (DecidableEq Bool)

namespace Number

/-- The word that carries a number. -/
def toWord : (t : Number) → (Kind.number t).Lane → Word
  | .float, x => x.bits
  | .integer _, x => x

/-- The number that a word carries. -/
def ofWord : (t : Number) → Word → (Kind.number t).Lane
  | .float, w => ⟨w⟩
  | .integer _, w => w

@[simp] theorem ofWord_toWord (t : Number) (x : (Kind.number t).Lane) :
    t.ofWord (t.toWord x) = x := by
  cases t <;> rfl

@[simp] theorem toWord_ofWord (t : Number) (w : Word) : t.toWord (t.ofWord w) = w := by
  cases t <;> rfl

end Number

end Wavefront
