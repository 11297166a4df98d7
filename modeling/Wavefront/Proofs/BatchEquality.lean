import Wavefront.Proofs.BatchOps

/-!
# Equality of batches

There are two ways to ask whether batches are equal. One takes single lanes and compares them as
numbers. The other compares whole registers, with an instruction of its own for floats that differ,
and collapses the mask of a comparison through the sign bits of its lanes. Both ways are statements
about all lanes (`equal_iff_lanes` on one side, the reductions of a mask on the other), and on a
lane both are `Lane.eq`.

A lane equals itself unless it is NaN, so equality of batches is reflexive only where there is none
(`eq_self`).

Main statement: `equality_by_comparison`.
-/

namespace Wavefront

namespace Lane

variable {k : Kind}

/-- The lane holds no number. Only floats can. -/
def isNaN : {k : Kind} → k.Lane → Bool
  | .number .float, x => Single.isNaN x
  | .number (.integer _), _ => false
  | .bool, _ => false

/-- A lane equals itself unless it is NaN. -/
theorem eq_self (x : k.Lane) : Lane.eq .keep x x = !isNaN x := by
  match k with
  | .number .float =>
    rw [Lane.eq, Single.eq, Single.operand_keep, beq_self_eq_true, Bool.and_true, Bool.and_self]
    rfl
  | .number (.integer _) => exact beq_self_eq_true x
  | .bool => exact beq_self_eq_true x

end Lane

namespace Batch

variable {B : Backend} {k : Kind} {t : Number} {n : Nat}

theorem equal_iff_lanes {a b : Batch B k n} :
    a.equal b = true ↔ ∀ i, Lane.eq .keep (a.lane i) (b.lane i) = true := by
  rw [equal, List.all_eq_true]
  simp only [List.mem_finRange, true_implies]

/-- The equality of two batches is seen in a mask of the lanes that are equal, by its truth
everywhere or by its count, and in a mask of those that differ. -/
structure SeenBy (a b : Batch B k n) (same differ : Mask B n) : Prop where
  /-- every lane is equal -/
  all : a.equal b = true ↔ same.all = true
  /-- no lane differs -/
  none : a.equal b = true ↔ differ.none = true
  /-- as many lanes are equal as there are -/
  count : a.equal b = true ↔ same.count = width B n
  /-- each lane is in one of the masks -/
  complement : differ = ~~~same

/-- It is seen so when the masks compare the lanes. -/
theorem seenBy_of_lanes {a b : Batch B k n} {same differ : Mask B n}
    (hsame : ∀ i, same.lane i = Lane.eq .keep (a.lane i) (b.lane i))
    (hdiffer : ∀ i, differ.lane i = !Lane.eq .keep (a.lane i) (b.lane i)) :
    a.SeenBy b same differ where
  all := by
    rw [equal_iff_lanes, Mask.all_eq_true]
    exact forall_congr' fun i => by rw [hsame]
  none := by
    rw [equal_iff_lanes, Mask.none_eq_true]
    exact forall_congr' fun i => by rw [hdiffer, Bool.not_eq_false']
  count := by
    rw [equal_iff_lanes, Mask.count_eq_width]
    exact forall_congr' fun i => by rw [hsame]
  complement := ext_lane fun i => by rw [hdiffer, Mask.lane_not, hsame]

theorem lane_maskEq (a b : Mask B n) (i : Fin (width B n)) :
    (Mask.eq a b).lane i = Lane.eq .keep (a.lane i) (b.lane i) :=
  (lane_zipRegs _ a b i).trans (Reg.lane_eq .keep _ _ _)

theorem lane_maskNe (a b : Mask B n) (i : Fin (width B n)) :
    (Mask.ne a b).lane i = !Lane.eq .keep (a.lane i) (b.lane i) := by
  rw [Mask.ne, Mask.lane_xor, Lane.eq]
  cases a.lane i <;> cases b.lane i <;> rfl

/-- Batches of every kind, on either backend and with any number of registers, are equal when their
comparison holds in all lanes, which is to say in as many as there are, and when the opposite
comparison holds in none. The two comparisons are complements of each other in every lane, NaN
included, and a batch equals itself when no lane is NaN. -/
theorem equality_by_comparison :
    (∀ a b : Batch B (.number t) n, a.SeenBy b (a.cmpEq .keep b) (a.cmpNe .keep b)) ∧
    (∀ a b : Mask B n, a.SeenBy b (Mask.eq a b) (Mask.ne a b)) ∧
    ∀ a : Batch B k n, a.equal a = true ↔ ∀ i, Lane.isNaN (a.lane i) = false := by
  refine ⟨fun a b => ?_, fun a b => ?_, fun a => ?_⟩
  · exact seenBy_of_lanes (lane_cmpEq .keep · a b) (lane_cmpNe .keep · a b)
  · exact seenBy_of_lanes (lane_maskEq a b) (lane_maskNe a b)
  · rw [equal_iff_lanes]
    exact forall_congr' fun i => by rw [Lane.eq_self, Bool.not_eq_true']

/-- Zeros of both signs are equal, and a NaN is not even equal to the same NaN. -/
example :
    let a : Batch .quad .float 2 := ⟨#v[#v[0, 0x80000000, 1, 2], #v[3, 4, 5, 0x7fc00000]]⟩
    let b : Batch .quad .float 2 := ⟨#v[#v[0x80000000, 0, 1, 2], #v[3, 4, 5, 0x7fc00000]]⟩
    (a.cmpEq .keep b).toList = [true, true, true, true, true, true, true, false] ∧
      a.equal b = false ∧ a.equal a = false := by
  decide +kernel

end Batch

end Wavefront
