import Wavefront.Proofs.BatchOps

/-!
# Indexed reads

An indexed read goes once through its candidates and assigns each under the mask of the lanes whose
index names its position. A position is compared as a word, so the list must not be longer than the
indices can count (`Lane.indexLimit`); then no two positions have the same word, every lane is
written once at most, and the lanes that were hit are those whose index, as a number, is in range.

* `Gathered` is what the candidates from a position on have done to one lane: put the one that its
  index names, and noted it, or left the lane alone. `gathered_from` is the induction on them.
* `readIndexed_fault` tells the fault by the lanes that were not hit.

Main statement: `readIndexed_gathers`.
-/

namespace Wavefront

/-! ## Indices -/

namespace Lane

/-- How many positions an index can tell apart. -/
def indexLimit : Signedness → Nat
  | .signed => 0x80000000
  | .unsigned => 0x100000000

/-- A position within the limit is the number that its word stands for. -/
theorem eq_ofNat_iff {s : Signedness} {w : Word} {position : Nat} (h : position < indexLimit s) :
    w = BitVec.ofNat 32 position ↔ toInt s w = position := by
  cases s with
  | signed =>
    have h : position < 0x80000000 := h
    have hnat : (BitVec.ofNat 32 position).toNat = position := Nat.mod_eq_of_lt (by omega)
    have hint : (BitVec.ofNat 32 position).toInt = position := by
      rw [BitVec.toInt_eq_toNat_of_lt (by omega), hnat]
    rw [← BitVec.toInt_inj, hint]
    rfl
  | unsigned =>
    have hnat : (BitVec.ofNat 32 position).toNat = position := Nat.mod_eq_of_lt h
    rw [← BitVec.toNat_inj, hnat]
    exact Int.ofNat_inj.symm

end Lane

namespace Batch

variable {B : Backend} {k : Kind} {s : Signedness} {n : Nat}
  {index : Batch B (.number (.integer s)) n} {b : Batch B k n} {candidates : List (Batch B k n)}
  {position count : Nat} {i : Fin (width B n)}

/-- The index of a lane as a number. -/
def indexAt (index : Batch B (.number (.integer s)) n) (i : Fin (width B n)) : Int :=
  Lane.toInt s (index.lane i)

/-- The index of a lane names one of so many candidates. -/
def InRange (index : Batch B (.number (.integer s)) n) (count : Nat) (i : Fin (width B n)) : Prop :=
  0 ≤ index.indexAt i ∧ index.indexAt i < count

instance : Decidable (index.InRange count i) := inferInstanceAs (Decidable (_ ∧ _))

theorem inRange_iff : index.InRange count i ↔ ∃ p < count, index.indexAt i = (p : Nat) := by
  constructor
  · intro h
    exact ⟨(index.indexAt i).toNat, by have := h.1; have := h.2; omega,
      (Int.toNat_of_nonneg h.1).symm⟩
  · rintro ⟨p, hp, hi⟩
    exact ⟨by omega, by omega⟩

/-! ## Gathering -/

/-- A candidate hits the lanes whose index is its position. -/
theorem lane_lanesEqual (h : position < Lane.indexLimit s) :
    (lanesEqual index position).lane i = true ↔ index.indexAt i = position := by
  have hlane : (lanesEqual index position).lane i =
      (index.lane i == BitVec.ofNat 32 position : Bool) := by
    refine (lane_zipRegs _ _ _ i).trans ((Reg.lane_eq .keep _ _ _).trans ?_)
    exact congrArg (Lane.eq .keep (index.lane i)) (lane_splat (k := .number (.integer s)) _ i)
  rw [hlane, indexAt, ← Lane.eq_ofNat_iff h]
  exact beq_iff_eq

/-- What going through the candidates from a position on has done to a lane. -/
structure Gathered (index : Batch B (.number (.integer s)) n) (candidates : List (Batch B k n))
    (position : Nat) (i : Fin (width B n)) (start finish : Batch B k n × Mask B n) : Prop where
  named : ∀ p (h : p < candidates.length), index.indexAt i = (position + p : Nat) →
    finish.1.lane i = candidates[p].lane i ∧ finish.2.lane i = true
  unnamed : (∀ p < candidates.length, index.indexAt i ≠ (position + p : Nat)) →
    finish.1.lane i = start.1.lane i ∧ finish.2.lane i = start.2.lane i

theorem gathered_nil {start : Batch B k n × Mask B n} :
    Gathered index [] position i start start :=
  ⟨fun p h => absurd h (Nat.not_lt_zero p), fun _ => ⟨rfl, rfl⟩⟩

/-- One candidate, and then the others. A lane that it hits is hit by none of the others, for they
stand at other positions. -/
theorem Gathered.cons {c : Batch B k n} {start finish : Batch B k n × Mask B n}
    (hlimit : position < Lane.indexLimit s)
    (h : Gathered index candidates (position + 1) i (gatherStep index start (c, position)) finish) :
    Gathered index (c :: candidates) position i start finish := by
  have hlane : (gatherStep index start (c, position)).1.lane i =
      if (lanesEqual index position).lane i then c.lane i else start.1.lane i :=
    lane_assignMasked _ _ _ i
  have hnoted : (gatherStep index start (c, position)).2.lane i =
      (start.2.lane i || (lanesEqual index position).lane i) :=
    Mask.lane_or _ _ i
  have hhit : (lanesEqual index position).lane i = true ↔ index.indexAt i = position :=
    lane_lanesEqual hlimit
  constructor
  · intro p hp hi
    cases p with
    | zero =>
      have hi : index.indexAt i = (position : Nat) := hi
      obtain ⟨hfirst, hsecond⟩ := h.unnamed fun p _ hp => by omega
      rw [hfirst, hsecond, hlane, hnoted, hhit.2 hi]
      exact ⟨rfl, Bool.or_true _⟩
    | succ p => exact h.named p (Nat.lt_of_succ_lt_succ hp) (by omega)
  · intro hnone
    have hmiss : (lanesEqual index position).lane i = false := by
      refine Bool.eq_false_iff.2 fun hi => ?_
      exact hnone 0 (Nat.succ_pos _) (hhit.1 hi)
    obtain ⟨hfirst, hsecond⟩ := h.unnamed fun p hp hi =>
      hnone (p + 1) (Nat.succ_lt_succ hp) (by omega)
    rw [hfirst, hsecond, hlane, hnoted, hmiss]
    exact ⟨rfl, Bool.or_false _⟩

/-- By induction on the candidates, which are counted from any position on. -/
theorem gathered_from (candidates : List (Batch B k n)) (position : Nat)
    (hlimit : position + candidates.length ≤ Lane.indexLimit s) (start : Batch B k n × Mask B n)
    (i : Fin (width B n)) :
    Gathered index candidates position i start
      ((candidates.zipIdx position).foldl (gatherStep index) start) := by
  induction candidates generalizing position start with
  | nil => exact gathered_nil
  | cons c candidates ih =>
    rw [List.length_cons] at hlimit
    rw [List.zipIdx_cons, List.foldl_cons]
    exact (ih (position + 1) (by omega) _).cons (by omega)

/-- What an indexed read as a whole does to a lane. -/
theorem gathered (hlimit : candidates.length ≤ Lane.indexLimit s) (i : Fin (width B n)) :
    Gathered index candidates 0 i (b, splat false) (b.gather index candidates) :=
  gathered_from candidates 0 (by omega) _ i

/-- The lanes that are noted are those with an index in range. -/
theorem lane_gather_hits (hlimit : candidates.length ≤ Lane.indexLimit s) (i : Fin (width B n)) :
    (b.gather index candidates).2.lane i = decide (index.InRange candidates.length i) := by
  have h : Gathered index candidates 0 i (b, splat false) (b.gather index candidates) :=
    gathered hlimit i
  by_cases hi : index.InRange candidates.length i
  · obtain ⟨p, hp, hindex⟩ := inRange_iff.1 hi
    rw [(h.named p hp (by omega)).2, decide_eq_true hi]
  · have hnone : ∀ p < candidates.length, index.indexAt i ≠ (0 + p : Nat) :=
      fun p hp hindex => hi (inRange_iff.2 ⟨p, hp, by omega⟩)
    rw [(h.unnamed hnone).2, decide_eq_false hi]
    exact lane_splat (k := .bool) false i

/-! ## The fault -/

/-- How many lanes have an index that names none of so many candidates. -/
def countOutOfRange (index : Batch B (.number (.integer s)) n) (count : Nat) : Nat :=
  (List.finRange (width B n)).countP fun i => !decide (index.InRange count i)

theorem countOutOfRange_eq_zero : index.countOutOfRange count = 0 ↔ ∀ i, index.InRange count i := by
  rw [countOutOfRange, List.countP_eq_zero]
  simp

/-- An indexed read ends in a fault if some index is out of range, and the fault has their
number. -/
theorem readIndexed_fault (hlimit : candidates.length ≤ Lane.indexLimit s) :
    (b.readIndexed index candidates).2 =
      if index.countOutOfRange candidates.length = 0 then none
      else some (.unmatchedIndex (index.countOutOfRange candidates.length) candidates.length) := by
  have hcount : Mask.count (~~~(b.gather index candidates).2) =
      index.countOutOfRange candidates.length := by
    rw [Mask.count_eq_countP_lane, countOutOfRange]
    refine congrArg (List.countP · _) (funext fun i => ?_)
    rw [Mask.lane_not, lane_gather_hits hlimit]
  have hall : Mask.all (b.gather index candidates).2 = true ↔
      index.countOutOfRange candidates.length = 0 := by
    rw [Mask.all_eq_true, countOutOfRange_eq_zero]
    exact forall_congr' fun i => by rw [lane_gather_hits hlimit, decide_eq_true_iff]
  rw [readIndexed_eq]
  simp only [hall, hcount]

/-- The value form of an indexed read has the result, unless there is a fault. -/
theorem readIndexedFrom_eq (b : Batch B k n) (index : Batch B (.number (.integer s)) n)
    (candidates : List (Batch B k n)) :
    b.readIndexedFrom index candidates = match (b.readIndexed index candidates).2 with
      | none => .ok (b.readIndexed index candidates).1
      | some fault => .error fault := by
  rw [readIndexedFrom]
  rcases b.readIndexed index candidates with ⟨result, _ | fault⟩ <;> rfl

/-- An indexed read puts on each lane with an index in range, bit for bit, that lane of the
candidate it names, and leaves every other lane as it was. It ends in a fault, with all that
written, if and only if there is such another lane, and the text of the fault has their number and
the number of candidates. The form that answers a value has the same batch where there is no fault
and refuses with the same fault where there is one. -/
theorem readIndexed_gathers (hlimit : candidates.length ≤ Lane.indexLimit s) (b : Batch B k n)
    (index : Batch B (.number (.integer s)) n) :
    (∀ i p, ∀ hp : p < candidates.length, index.indexAt i = (p : Nat) →
      (b.readIndexed index candidates).1.lane i = candidates[p].lane i) ∧
    (∀ i, ¬index.InRange candidates.length i →
      (b.readIndexed index candidates).1.lane i = b.lane i) ∧
    ((b.readIndexed index candidates).2 ≠ none ↔ ∃ i, ¬index.InRange candidates.length i) ∧
    (∀ fault, (b.readIndexed index candidates).2 = some fault →
      fault.message = "indexed read: " ++ toString (index.countOutOfRange candidates.length) ++
        " lane(s) index past " ++ toString candidates.length ++ " candidates" ∧
      b.readIndexedFrom index candidates = .error fault) ∧
    ((b.readIndexed index candidates).2 = none →
      b.readIndexedFrom index candidates = .ok (b.readIndexed index candidates).1) := by
  have hresult : (b.readIndexed index candidates).1 = (b.gather index candidates).1 := by
    rw [readIndexed_eq]
  refine ⟨fun i p hp hi => ?_, fun i hi => ?_, ?_, fun fault h => ⟨?_, ?_⟩, fun h => ?_⟩
  · rw [hresult]
    exact ((gathered hlimit i).named p hp (by omega)).1
  · rw [hresult]
    refine ((gathered hlimit i).unnamed fun p hp hindex => ?_).1
    exact hi (inRange_iff.2 ⟨p, hp, by omega⟩)
  · rw [readIndexed_fault hlimit, ← not_forall, ← countOutOfRange_eq_zero]
    split
    case isTrue h => exact iff_of_false (fun hn => hn rfl) fun hn => hn h
    case isFalse h => exact iff_of_true (Option.some_ne_none _) h
  · rw [readIndexed_fault hlimit] at h
    split at h
    case isTrue => cases h
    case isFalse =>
      obtain rfl := Option.some.inj h
      rfl
  · rw [readIndexedFrom_eq, h]
  · rw [readIndexedFrom_eq, h]

/-- Four lanes and two candidates. The first two indices name one each, the third is negative and
the last one past the end: those two lanes keep a NaN with its payload and a negative zero. -/
theorem readIndexed_gathers_four_lanes :
    let b : Batch .quad .float 1 := ⟨#v[#v[0, 0, 0x7fc00001, 0x80000000]]⟩
    let index : Batch .quad .int 1 := ⟨#v[#v[1, 0, 0xffffffff, 2]]⟩
    let candidates : List (Batch .quad .float 1) :=
      [⟨#v[#v[0x10, 0x11, 0x12, 0x13]]⟩, ⟨#v[#v[0x20, 0xffc00021, 0x22, 0x23]]⟩]
    candidates.length ≤ Lane.indexLimit .signed ∧
      (b.readIndexed index candidates).1.toList.map Single.bits =
        [0x20, 0x11, 0x7fc00001, 0x80000000] ∧
      ∃ fault, b.readIndexedFrom index candidates = .error fault ∧
        fault.message = "indexed read: 2 lane(s) index past 2 candidates" := by
  intro b index candidates
  have hlimit : candidates.length ≤ Lane.indexLimit .signed := by decide
  obtain ⟨-, -, -, hfault, -⟩ := readIndexed_gathers hlimit b index
  have h : (b.readIndexed index candidates).2 = some (.unmatchedIndex 2 2) := by decide +kernel
  obtain ⟨-, hfrom⟩ := hfault _ h
  exact ⟨hlimit, by decide +kernel, _, hfrom, rfl⟩

end Batch

end Wavefront
