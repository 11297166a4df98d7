import Wavefront.Batch.Arithmetic

/-!
# Choosing lane by lane

Masked assignment is the one primitive: it overwrites the lanes where a mask is true and leaves
every other lane bit for bit. Selection is a masked assignment to the other choice, and an indexed
read is a sequence of masked assignments, one for each candidate, in which every lane is hit at most
once.
-/

namespace Wavefront.Batch

variable {B : Backend} {k : Kind} {s : Signedness} {n : Nat}

/-- The lanes of `source` where the mask is true and those of `b` elsewhere. -/
def assignMasked (b : Batch B k n) (mask : Mask B n) (source : Batch B k n) : Batch B k n :=
  ⟨Vector.ofFn fun (r : Fin n) =>
    Reg.select (mask.regs.get r) (source.regs.get r) (b.regs.get r)⟩

/-- The first choice where the condition is true and the second elsewhere. -/
def select (cond : Mask B n) (ifTrue ifFalse : Batch B k n) : Batch B k n :=
  ifFalse.assignMasked cond ifTrue

/-! ## Indexed reads -/

/-- Lanes of an index that name the candidate at a position. -/
def lanesEqual (index : Batch B (.number (.integer s)) n) (position : Nat) : Mask B n :=
  index.cmpEq .keep (splat (BitVec.ofNat 32 position))

/-- Takes one candidate: assigns it where the index names its position, and notes those lanes. -/
def gatherStep (index : Batch B (.number (.integer s)) n) (state : Batch B k n × Mask B n)
    (candidate : Batch B k n × Nat) : Batch B k n × Mask B n :=
  let hit := lanesEqual index candidate.2
  (state.1.assignMasked hit candidate.1, state.2 ||| hit)

/-- Copies to each lane the same lane of the candidate that the index names there. Answers the
result and the lanes whose index named a candidate; the others keep their values. -/
def gather (b : Batch B k n) (index : Batch B (.number (.integer s)) n)
    (candidates : List (Batch B k n)) : Batch B k n × Mask B n :=
  candidates.zipIdx.foldl (gatherStep index) (b, splat false)

/-- An indexed read with the fault it ends in, if some index named no candidate. The lanes that did
match have been written also then. -/
def readIndexed (b : Batch B k n) (index : Batch B (.number (.integer s)) n)
    (candidates : List (Batch B k n)) : Batch B k n × Option Fault :=
  let (result, hits) := b.gather index candidates
  if Mask.all hits then (result, none)
  else (result, some (.unmatchedIndex (Mask.count (~~~hits)) candidates.length))

/-- An indexed read as a value: refused if some index named no candidate. -/
def readIndexedFrom (b : Batch B k n) (index : Batch B (.number (.integer s)) n)
    (candidates : List (Batch B k n)) : Except Fault (Batch B k n) :=
  match b.readIndexed index candidates with
  | (result, none) => .ok result
  | (_, some fault) => .error fault

end Wavefront.Batch
