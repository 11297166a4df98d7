import Wavefront.Batch.Memory

/-!
# Aligned lane buffers

A buffer of a fixed number of lanes that starts at a multiple of `Memory.storageAlign`, so that
every backend's registers can be moved to and from it.
-/

namespace Wavefront

/-- A buffer of `m` lanes of a kind. -/
structure AlignedLanes (k : Kind) (m : Nat) where
  values : Vector k.Lane m

namespace AlignedLanes

variable {k : Kind} {m : Nat}

/-- Zero or false in every place. -/
def zeros : AlignedLanes k m := ⟨Vector.replicate m k.zeroLane⟩

/-- The values in order. -/
def toList (a : AlignedLanes k m) : List k.Lane := a.values.toList

/-- The buffer with one value replaced. -/
def set (a : AlignedLanes k m) (i : Nat) (v : k.Lane) : Except Fault (AlignedLanes k m) :=
  if h : i < m then .ok ⟨a.values.set i v⟩ else .error (.indexOutOfBounds m i)

/-- Equal as numbers in every place, so that a buffer with a NaN does not equal itself. -/
def equal (a b : AlignedLanes k m) : Bool :=
  (List.finRange m).all fun i => Lane.eq .keep (a.values.get i) (b.values.get i)

/-- The text of a buffer. -/
def text (a : AlignedLanes k m) : String := "AlignedLanes(" ++ Lane.listText k a.toList ++ ")"

/-- The buffer as memory at an address. -/
def toMemory (a : AlignedLanes k m) : Memory k := ⟨Memory.storageAlign, a.toList⟩

end AlignedLanes

end Wavefront
