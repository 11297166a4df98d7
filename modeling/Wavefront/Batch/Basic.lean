import Wavefront.Register

/-!
# Batches

A `Batch B k n` is `n` registers of backend `B` for kind `k`, and so `n * B.lanes` lanes. Lane `i`
is lane `i % B.lanes` of register `i / B.lanes`.

* **Building**: `splat`, `ofFn` and its effectful form `ofFnM`, `ofSlice`, `ofParts`.
* **Reading**: `lane`, `toList`, `part`, and their checked forms by plain numbers.
* **Updating**: `setLane`, `setPart`. An update that is refused answers a `Fault` and no batch, so
  the batch it was asked of stays what it was.
-/

namespace Wavefront

/-- Lanes of one kind, in `n` registers of a backend. -/
structure Batch (B : Backend) (k : Kind) (n : Nat) where
  /-- the registers, in lane order -/
  regs : Vector (Reg B k) n

/-- A batch of truth values. -/
abbrev Mask (B : Backend) (n : Nat) := Batch B .bool n

namespace Batch

variable {B : Backend} {k : Kind} {n : Nat}

/-- The number of lanes. -/
def width (B : Backend) (n : Nat) : Nat := n * B.lanes

/-! ## Where a lane is -/

/-- The register that holds a lane. -/
def registerOf (i : Fin (width B n)) : Fin n :=
  ⟨i / B.lanes, Nat.div_lt_of_lt_mul (Nat.mul_comm n B.lanes ▸ i.isLt)⟩

/-- The place of a lane in its register. -/
def placeOf (i : Fin (width B n)) : Fin B.lanes := ⟨i % B.lanes, Nat.mod_lt _ B.lanes_pos⟩

/-- The lane at a place of a register. -/
def laneAt (r : Fin n) (j : Fin B.lanes) : Fin (width B n) :=
  ⟨r * B.lanes + j, by
    have hr : (r + 1) * B.lanes ≤ n * B.lanes := Nat.mul_le_mul_right _ r.isLt
    have hj := j.isLt
    simp only [width]
    rw [Nat.succ_mul] at hr
    omega⟩

/-! ## Building -/

/-- The same value in every lane. -/
def splat (v : k.Lane) : Batch B k n := ⟨Vector.replicate n (Reg.splat v)⟩

/-- Zero or false in every lane. -/
def zeros : Batch B k n := splat k.zeroLane

/-- The batch whose lanes are the answers of an effectful function, asked once for each lane, in
lane order. -/
def ofFnM {m : Type → Type} [Monad m] (f : Fin (width B n) → m k.Lane) : m (Batch B k n) := do
  let regs ← Vector.ofFnM fun (r : Fin n) => do
    let answers ← Vector.ofFnM fun (j : Fin B.lanes) => f (laneAt r j)
    -- the answers fill the front of a buffer
    return Reg.ofFront (answers.toList ++ (Reg.emptyBuffer k).drop B.lanes)
  return ⟨regs⟩

/-- The batch with the given lanes. -/
def ofFn (f : Fin (width B n) → k.Lane) : Batch B k n :=
  ⟨Vector.ofFn fun r => Reg.ofFn fun j => f (laneAt r j)⟩

/-- The batch with the first lanes of a slice, which may be longer but not shorter. -/
def ofSlice (values : List k.Lane) : Except Fault (Batch B k n) :=
  if values.length < width B n then .error (.sliceTooShort values.length (width B n))
  else do
    let regs ← Vector.ofFnM fun (r : Fin n) => Reg.load (values.drop (r * B.lanes))
    return ⟨regs⟩

/-- The batch made of single-register batches. -/
def ofParts (parts : Vector (Batch B k 1) n) : Batch B k n := ⟨parts.map fun p => p.regs[0]⟩

/-! ## Reading -/

/-- The value of a lane. -/
def lane (b : Batch B k n) (i : Fin (width B n)) : k.Lane :=
  (b.regs.get (registerOf i)).lane (placeOf i)

/-- Writes a register to its place in a row of slots for all lanes. -/
def writeRegister (slots : List k.Lane) (numbered : Reg B k × Nat) : List k.Lane :=
  let first := numbered.2 * B.lanes
  slots.take first ++ numbered.1.intoFront (slots.drop first)

/-- All lanes, in order: the registers are written to a row of slots one after the other. -/
def toList (b : Batch B k n) : List k.Lane :=
  b.regs.toList.zipIdx.foldl writeRegister (List.replicate (width B n) k.zeroLane)

/-- The register with that number. -/
def register (b : Batch B k n) (r : Nat) : Except Fault (Reg B k) :=
  if h : r < n then .ok b.regs[r] else .error (.indexOutOfBounds n r)

/-- The value of the lane with that number. -/
def getLane (b : Batch B k n) (i : Nat) : Except Fault k.Lane :=
  if i < width B n then do (← b.register (i / B.lanes)).extract (i % B.lanes)
  else .error (.laneOutOfRange i (width B n))

/-- The register with that number, as a batch of its own. -/
def part (b : Batch B k n) (r : Nat) : Except Fault (Batch B k 1) := do
  return ⟨#v[← b.register r]⟩

/-! ## Updating -/

/-- The batch with the register of that number replaced. -/
def setRegister (b : Batch B k n) (r : Nat) (reg : Reg B k) : Except Fault (Batch B k n) :=
  if h : r < n then .ok ⟨b.regs.set r reg⟩ else .error (.indexOutOfBounds n r)

/-- The batch with the lane of that number replaced. -/
def setLane (b : Batch B k n) (i : Nat) (v : k.Lane) : Except Fault (Batch B k n) :=
  if i < width B n then do
    let reg ← (← b.register (i / B.lanes)).insert (i % B.lanes) v
    b.setRegister (i / B.lanes) reg
  else .error (.laneOutOfRange i (width B n))

/-- The batch with the lanes of one register replaced by those of a single-register batch. -/
def setPart (b : Batch B k n) (r : Nat) (p : Batch B k 1) : Except Fault (Batch B k n) :=
  b.setRegister r p.regs[0]

/-! ## Register by register -/

/-- Applies an operation to every register. -/
def mapRegs {k' : Kind} (f : Reg B k → Reg B k') (b : Batch B k n) : Batch B k' n := ⟨b.regs.map f⟩

/-- Applies an operation to every pair of registers. -/
def zipRegs {k' k'' : Kind} (f : Reg B k → Reg B k' → Reg B k'') (a : Batch B k n)
    (b : Batch B k' n) : Batch B k'' n :=
  ⟨Vector.zipWith f a.regs b.regs⟩

/-- Applies an operation that may be refused to every pair of registers, in order. -/
def zipRegsM {k' k'' : Kind} (f : Reg B k → Reg B k' → Except Fault (Reg B k''))
    (a : Batch B k n) (b : Batch B k' n) : Except Fault (Batch B k'' n) := do
  let regs ← Vector.ofFnM fun (r : Fin n) => f (a.regs.get r) (b.regs.get r)
  return ⟨regs⟩

/-! ## Equality and text -/

/-- Equal as numbers in every lane, so that a batch with a NaN does not equal itself. -/
def equal (a b : Batch B k n) : Bool :=
  (List.finRange (width B n)).all fun i => Lane.eq .keep (a.lane i) (b.lane i)

/-- The backend, the kind, the number of registers and the lanes. -/
def text (b : Batch B k n) : String :=
  "Batch<" ++ B.name ++ ", " ++ k.name ++ ", " ++ toString n ++ ">" ++ Lane.listText k b.toList

/-- The registers in brackets. -/
def registersText (b : Batch B k n) : String :=
  "[" ++ ", ".intercalate (b.regs.toList.map Reg.text) ++ "]"

end Batch

end Wavefront
