import Wavefront.Batch.Logic

/-!
# Arithmetic of batches

The operators of the numeric kinds, register by register. The named forms take the mode for
subnormal floats; the operator symbols stand for ordinary arithmetic, which keeps them. Integer
division and remainder are refused as a whole when any lane of the divisor is zero.
-/

namespace Wavefront.Batch

variable {B : Backend} {t : Number} {s : Signedness} {n : Nat}

/-! ## Comparisons -/

/-- Lanes that are equal. -/
def cmpEq (mode : Denormals) (a b : Batch B (.number t) n) : Mask B n := zipRegs (Reg.eq mode) a b

/-- Lanes that differ or are unordered. -/
def cmpNe (mode : Denormals) (a b : Batch B (.number t) n) : Mask B n := zipRegs (Reg.ne mode) a b

/-- Lanes where the first is less. -/
def cmpLt (mode : Denormals) (a b : Batch B (.number t) n) : Mask B n := zipRegs (Reg.lt mode) a b

/-- Lanes where the first is less or equal. -/
def cmpLe (mode : Denormals) (a b : Batch B (.number t) n) : Mask B n := zipRegs (Reg.le mode) a b

/-- Lanes where the first is greater. -/
def cmpGt (mode : Denormals) (a b : Batch B (.number t) n) : Mask B n := zipRegs (Reg.gt mode) a b

/-- Lanes where the first is greater or equal. -/
def cmpGe (mode : Denormals) (a b : Batch B (.number t) n) : Mask B n := zipRegs (Reg.ge mode) a b

/-! ## Arithmetic of every number -/

/-- Sums. -/
def add (mode : Denormals) (a b : Batch B (.number t) n) : Batch B (.number t) n :=
  zipRegs (Reg.add mode) a b

/-- Differences. -/
def sub (mode : Denormals) (a b : Batch B (.number t) n) : Batch B (.number t) n :=
  zipRegs (Reg.sub mode) a b

/-- Products. -/
def mul (mode : Denormals) (a b : Batch B (.number t) n) : Batch B (.number t) n :=
  zipRegs (Reg.mul mode) a b

/-- The lesser of each pair; the second where they are equal or unordered. -/
def min (a b : Batch B (.number t) n) : Batch B (.number t) n := zipRegs Reg.min a b

/-- The greater of each pair; the second where they are equal or unordered. -/
def max (a b : Batch B (.number t) n) : Batch B (.number t) n := zipRegs Reg.max a b

/-- Brings every lane between the bounds: the maximum with the lower one, then the minimum with the
upper one. -/
def clamp (a low high : Batch B (.number t) n) : Batch B (.number t) n := (a.max low).min high

/-! ## Floats -/

/-- Float quotients. -/
def quotient (mode : Denormals) (a b : Batch B .float n) : Batch B .float n :=
  zipRegs (Reg.div mode) a b

/-! ## Integers -/

/-- Integer quotients, toward zero. -/
def wordQuotient (a b : Batch B (.number (.integer s)) n) :
    Except Fault (Batch B (.number (.integer s)) n) :=
  zipRegsM Reg.quotient a b

/-- Integer remainders, with the signs of the dividends. -/
def remainder (a b : Batch B (.number (.integer s)) n) :
    Except Fault (Batch B (.number (.integer s)) n) :=
  zipRegsM Reg.remainder a b

/-- Left shifts by one count. -/
def shiftLeft (a : Batch B (.number (.integer s)) n) (count : Word) :
    Batch B (.number (.integer s)) n :=
  a.mapRegs fun r => Reg.shiftLeft r count

/-- Right shifts by one count. -/
def shiftRight (a : Batch B (.number (.integer s)) n) (count : Word) :
    Batch B (.number (.integer s)) n :=
  a.mapRegs fun r => Reg.shiftRight r count

/-! ## Quotients of every number -/

/-- Quotients: rounded for floats, toward zero for integers. -/
def div (mode : Denormals) :
    {t : Number} → (a b : Batch B (.number t) n) → Except Fault (Batch B (.number t) n)
  | .float, a, b => .ok (quotient mode a b)
  | .integer _, a, b => wordQuotient a b

/-! ## Operators -/

instance : Add (Batch B (.number t) n) := ⟨add .keep⟩

instance : Sub (Batch B (.number t) n) := ⟨sub .keep⟩

instance : Mul (Batch B (.number t) n) := ⟨mul .keep⟩

instance : Div (Batch B .float n) := ⟨quotient .keep⟩

instance : AndOp (Batch B (.number (.integer s)) n) := ⟨zipRegs Reg.and⟩

instance : OrOp (Batch B (.number (.integer s)) n) := ⟨zipRegs Reg.or⟩

instance : XorOp (Batch B (.number (.integer s)) n) := ⟨zipRegs Reg.xor⟩

instance : Complement (Batch B (.number (.integer s)) n) := ⟨mapRegs Reg.not⟩

instance : Neg (Batch B .float n) := ⟨mapRegs Reg.neg⟩

/-- Wrapping negation: the difference from zero. -/
instance : Neg (Batch B .int n) := ⟨fun a => zeros - a⟩

/-! ## Conversions -/

/-- The values carried to another kind. -/
def cast {k : Kind} (target : Kind) (a : Batch B k n) : Batch B target n :=
  a.mapRegs (Reg.cast target)

/-- The patterns of floats, as integers. -/
def toBits (s : Signedness) (a : Batch B .float n) : Batch B (.number (.integer s)) n :=
  a.mapRegs Reg.toBits

/-- The floats with the given patterns. -/
def ofBits (a : Batch B (.number (.integer s)) n) : Batch B .float n := a.mapRegs Reg.ofBits

end Wavefront.Batch
