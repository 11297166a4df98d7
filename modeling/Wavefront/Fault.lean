import Wavefront.Word

/-!
# Faults

An operation on batches is refused for one of the causes below. The wording of each is in
`Fault.message`. `MemoryError` is apart: a checked memory access reports it as a value of its own.
-/

namespace Wavefront

/-- Why an operation was refused. -/
inductive Fault
  /-- a slice is shorter than the batch to be built from it -/
  | sliceTooShort (got needed : Nat)
  /-- a batch has no such lane -/
  | laneOutOfRange (lane width : Nat)
  /-- a register has no such lane -/
  | registerLaneOutOfRange (lane : Nat)
  /-- an array has no such element -/
  | indexOutOfBounds (length index : Nat)
  /-- a wide register is read from fewer values than it holds -/
  | shortSource
  /-- a wide register is written to fewer places than it has lanes -/
  | shortDestination
  /-- a register is moved to or from an address that is not a multiple of its alignment -/
  | unalignedAccess (remainder : Nat)
  /-- an integer divisor is zero -/
  | divisionByZero
  /-- an integer divisor of a remainder is zero -/
  | remainderByZero
  /-- an indexed read met lanes whose index names no candidate -/
  | unmatchedIndex (lanes candidates : Nat)
deriving DecidableEq

/-- The text of a fault. -/
def Fault.message : Fault → String
  | sliceTooShort got needed => s!"slice holds {got} lanes, batch needs {needed}"
  | laneOutOfRange lane width => s!"lane {lane} out of range for width {width}"
  | registerLaneOutOfRange lane => s!"lane {lane} out of range"
  | indexOutOfBounds length index =>
    s!"index out of bounds: the len is {length} but the index is {index}"
  | shortSource => "assertion failed: src.len() >= 4"
  | shortDestination => "assertion failed: dst.len() >= 4"
  | unalignedAccess remainder =>
    s!"assertion `left == right` failed\n  left: {remainder}\n right: 0"
  | divisionByZero => "attempt to divide by zero"
  | remainderByZero => "attempt to calculate the remainder with a divisor of zero"
  | unmatchedIndex lanes candidates =>
    s!"indexed read: {lanes} lane(s) index past {candidates} candidates"

/-- Why a checked memory access was rejected. -/
inductive MemoryError
  /-- the slice holds fewer elements than the batch has lanes -/
  | tooShort (needed got : Nat)
  /-- the slice starts at an address that registers cannot be moved to or from -/
  | misaligned (align address : Nat)
deriving DecidableEq

namespace MemoryError

/-- The text for a reader. -/
def message : MemoryError → String
  | tooShort needed got => s!"slice holds {got} lanes, batch needs {needed}"
  | misaligned align address => s!"address {hexadecimal address} is not aligned to {align} bytes"

/-- The text with the fields by name. -/
def fields : MemoryError → String
  | tooShort needed got => s!"TooShort \x7b needed: {needed}, got: {got} \x7d"
  | misaligned align address => s!"Misaligned \x7b align: {align}, addr: {address} \x7d"

end MemoryError

end Wavefront
