import Wavefront.Batch.Basic

/-!
# Masks

Logic on the lanes of a mask, and the reductions that collapse a mask to one decision. Every lane
is evaluated; nothing is short-circuited.
-/

namespace Wavefront

variable {B : Backend} {n : Nat}

instance : AndOp (Mask B n) := ⟨Batch.zipRegs Reg.maskAnd⟩

instance : OrOp (Mask B n) := ⟨Batch.zipRegs Reg.maskOr⟩

instance : XorOp (Mask B n) := ⟨Batch.zipRegs Reg.maskXor⟩

instance : Complement (Mask B n) := ⟨Batch.mapRegs Reg.maskNot⟩

namespace Mask

/-- Some lane is true. -/
def any (m : Mask B n) : Bool := m.regs.any Reg.any

/-- Every lane is true. -/
def all (m : Mask B n) : Bool := m.regs.all Reg.all

/-- No lane is true. -/
def none (m : Mask B n) : Bool := !any m

/-- How many bits of a bitmask are set. -/
def ones (bitmask : Nat) : Nat := (List.range Backend.maxLanes).countP bitmask.testBit

/-- How many lanes are true. -/
def count (m : Mask B n) : Nat :=
  m.regs.foldl (fun total r => total + ones (Reg.bitmask r)) 0

/-- The bitmask of every register. -/
def bitmasks (m : Mask B n) : List Nat := m.regs.toList.map Reg.bitmask

/-- Whether some and whether all lanes are true, for every register. -/
def registerReductions (m : Mask B n) : List (Bool × Bool) :=
  m.regs.toList.map fun r => (Reg.any r, Reg.all r)

/-- Lanes that agree. -/
def eq (a b : Mask B n) : Mask B n := Batch.zipRegs (Reg.eq .keep) a b

/-- Lanes that differ. -/
def ne (a b : Mask B n) : Mask B n := a ^^^ b

end Mask

end Wavefront
