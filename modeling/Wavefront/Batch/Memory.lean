import Wavefront.Batch.Basic

/-!
# Checked memory access

A `Memory` is a run of cells of one kind at an address. A batch is stored to and loaded from a slice
of it: `length` cells from the cell `offset` on. Registers move as a whole and only to and from
aligned addresses; one that is not is a fault. So the slice must hold all lanes and start at a
multiple of the alignment, which `store` and `load` judge first, the length before the address.
Register `r` is then at `registerCell offset r`.
-/

namespace Wavefront

/-- Cells of one kind at consecutive addresses. -/
structure Memory (k : Kind) where
  /-- the address of the first cell -/
  base : Nat
  /-- the values, in order -/
  cells : List k.Lane

namespace Memory

variable {k : Kind}

/-- The alignment that every register of every backend is content with. -/
def storageAlign : Nat := 64

/-- Cells with zero or false, at an address that is a multiple of `storageAlign`. -/
def zeros (count : Nat) : Memory k := ⟨storageAlign, List.replicate count k.zeroLane⟩

/-- The address of a cell. -/
def address (m : Memory k) (cell : Nat) : Nat := m.base + cell * k.bytes

/-- The value of a cell. -/
def read (m : Memory k) (cell : Nat) : k.Lane := m.cells.getD cell k.zeroLane

/-- The memory with values put from a cell on. -/
def write (m : Memory k) (cell : Nat) (values : List k.Lane) : Memory k :=
  { m with cells := m.cells.take cell ++ values ++ m.cells.drop (cell + values.length) }

end Memory

/-! ## Accesses -/

/-- Code that reads and writes a memory. What was written before a fault stays written. -/
abbrev Access (k : Kind) : Type → Type := ExceptT Fault (StateM (Memory k))

/-- What an access answers, and the memory that it leaves. -/
def Access.run {k : Kind} {α : Type} (x : Access k α) (m : Memory k) : Except Fault α × Memory k :=
  Id.run (StateT.run (ExceptT.run x) m)

namespace Reg

variable {B : Backend} {k : Kind}

/-- The assertion that stands before a register access. -/
def requireAligned (B : Backend) (k : Kind) (cell : Nat) : Access k Unit := do
  let remainder := (← get).address cell % align B k
  if remainder ≠ 0 then throw (.unalignedAccess remainder)

/-- Puts the lanes of a register at a cell. -/
def storeAligned (r : Reg B k) (cell : Nat) : Access k Unit := do
  requireAligned B k cell
  modify fun m => m.write cell r.toList

/-- Takes the lanes of a register from a cell. -/
def loadAligned (cell : Nat) : Access k (Reg B k) := do
  requireAligned B k cell
  let m ← get
  return ofFn fun j => m.read (cell + j.val)

end Reg

namespace Batch

variable {B : Backend} {k : Kind} {n : Nat}

/-- The first cell of a register, for a batch at a cell. -/
def registerCell (B : Backend) (offset r : Nat) : Nat := offset + r * B.lanes

/-- Puts the lanes at a cell, register by register. -/
def storeAligned (b : Batch B k n) (offset : Nat) : Access k Unit :=
  forM (List.finRange n) fun r => (b.regs.get r).storeAligned (registerCell B offset r)

/-- Takes the lanes from a cell, register by register. -/
def loadAligned (offset : Nat) : Access k (Batch B k n) := do
  return ⟨← Vector.ofFnM fun r => Reg.loadAligned (registerCell B offset r)⟩

/-- Whether a batch can be moved to or from a slice of that length at that address. -/
def checkSlice (B : Backend) (k : Kind) (n length address : Nat) : Except MemoryError Unit :=
  if length < width B n then .error (.tooShort (width B n) length)
  else if address % Reg.align B k ≠ 0 then .error (.misaligned (Reg.align B k) address)
  else .ok ()

/-- Puts the lanes into the front of a slice. -/
def store (b : Batch B k n) (offset length : Nat) : Access k (Except MemoryError Unit) := do
  match checkSlice B k n length ((← get).address offset) with
  | .error e => return .error e
  | .ok () =>
    b.storeAligned offset
    return .ok ()

/-- Takes the lanes from the front of a slice. -/
def load (offset length : Nat) : Access k (Except MemoryError (Batch B k n)) := do
  match checkSlice B k n length ((← get).address offset) with
  | .error e => return .error e
  | .ok () => return .ok (← loadAligned offset)

end Batch

end Wavefront
