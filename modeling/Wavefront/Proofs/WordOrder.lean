import Wavefront.Proofs.BatchOps
import Wavefront.Proofs.WordNumbers

/-!
# The order of words

The four-lane unit orders signed words only and knows strict comparisons; everything else comes from
these by flipped bits, negated masks and selections. On the numbers that the words stand for, all of
it is the order of integers: the comparisons (`lt_eq`, `le_eq`, `eq_eq`), minimum and maximum
(`toInt_min`, `toInt_max`) and with them the clamp (`ClosestIn`).

The sign and the absolute value of a signed word are those of its number, wrapped (`sign_word`,
`absolute_word`). The least word is where wrapping shows, and the laws of sign and absolute value
that hold for numbers hold for it too.

Main statement: `order_of_words`.
-/

namespace Wavefront

/-! ## Clamping -/

/-- The number of a range that is closest to `x`: all others are farther away. -/
structure ClosestIn (low high x v : ℤ) : Prop where
  low_le : low ≤ v
  le_high : v ≤ high
  nearer : ∀ w, low ≤ w → w ≤ high → w ≠ v → |v - x| < |w - x|

/-- Clamping between two bounds in order answers what is closest between them. -/
theorem closestIn_clamp {low high : ℤ} (h : low ≤ high) (x : ℤ) :
    ClosestIn low high x (min (max x low) high) := by
  refine ⟨le_min (le_max_right x low) h, min_le_right _ _, fun w hlow hhigh hne => ?_⟩
  rw [Int.abs_eq_natAbs, Int.abs_eq_natAbs]
  omega

/-- Between bounds that are not in order there is only the upper one left. -/
theorem clamp_of_lt {low high : ℤ} (h : high < low) (x : ℤ) : min (max x low) high = high :=
  min_eq_right (h.le.trans (le_max_right x low))

namespace Lane

variable {s : Signedness} (mode : Denormals) (x y : Word)

/-! ## Comparisons -/

theorem eq_eq : eq mode (k := .number (.integer s)) x y = decide (toInt s x = toInt s y) := by
  simp only [toInt_inj]
  rfl

theorem lt_eq : lt mode (t := .integer s) x y = decide (toInt s x < toInt s y) := by
  cases s with
  | signed => exact BitVec.slt_eq_decide
  | unsigned =>
    refine BitVec.ult_eq_decide.trans ?_
    simp only [toInt, Int.ofNat_lt]

theorem le_eq : le mode (t := .integer s) x y = decide (toInt s x ≤ toInt s y) := by
  cases s with
  | signed => exact BitVec.sle_eq_decide
  | unsigned =>
    refine BitVec.ule_eq_decide.trans ?_
    simp only [toInt, Int.ofNat_le]

theorem toInt_min : toInt s (min (t := .integer s) x y) = Min.min (toInt s x) (toInt s y) := by
  rw [min, lt_eq]
  by_cases h : toInt s x < toInt s y
  · rw [decide_eq_true h, if_pos rfl, min_eq_left h.le]
  · rw [decide_eq_false h, if_neg Bool.false_ne_true, min_eq_right (not_lt.1 h)]

theorem toInt_max : toInt s (max (t := .integer s) x y) = Max.max (toInt s x) (toInt s y) := by
  rw [max, lt_eq]
  by_cases h : toInt s y < toInt s x
  · rw [decide_eq_true h, if_pos rfl, max_eq_left h.le]
  · rw [decide_eq_false h, if_neg Bool.false_ne_true, max_eq_right (not_lt.1 h)]

/-! ## Sign and absolute value -/

/-- The difference of the two tests is the sign. -/
theorem sign_word :
    wordOfBool (decide (0 < x.toInt)) - wordOfBool (decide (x.toInt < 0))
      = BitVec.ofInt 32 x.toInt.sign := by
  rcases lt_trichotomy x.toInt 0 with h | h | h
  · rw [decide_eq_false h.le.not_gt, decide_eq_true h, Int.sign_eq_neg_one_of_neg h]
    rfl
  · rw [h]
    rfl
  · rw [decide_eq_true h, decide_eq_false h.le.not_gt, Int.sign_eq_one_of_pos h]
    rfl

/-- The opposite of what is not positive is its absolute value, also for the least word. -/
theorem absolute_word : (if 0 ≤ x.toInt then x else -x) = BitVec.ofInt 32 |x.toInt| := by
  split
  case isTrue h => rw [abs_of_nonneg h, BitVec.ofInt_toInt]
  case isFalse h => rw [abs_of_neg (not_le.1 h), BitVec.ofInt_neg, BitVec.ofInt_toInt]

/-- Only the least word has no opposite. -/
theorem toInt_neg_of_ne (h : x ≠ 0x80000000) : (-x).toInt = -x.toInt :=
  BitVec.toInt_neg_of_ne_intMin h

theorem absolute_neg : BitVec.ofInt 32 |(-x).toInt| = BitVec.ofInt 32 |x.toInt| := by
  by_cases h : x = 0x80000000
  · rw [h]
    rfl
  · rw [toInt_neg_of_ne x h, abs_neg]

theorem absolute_nonneg : 0 ≤ (BitVec.ofInt 32 |x.toInt|).toInt ↔ x ≠ 0x80000000 := by
  constructor
  · rintro h rfl
    exact absurd h (by decide)
  · intro h
    have hneg := toInt_neg_of_ne x h
    rw [← absolute_word]
    split
    case isTrue h => exact h
    case isFalse h => omega

theorem sign_mul_absolute :
    BitVec.ofInt 32 x.toInt.sign * BitVec.ofInt 32 |x.toInt| = x := by
  rw [← BitVec.ofInt_mul, Int.sign_mul_abs, BitVec.ofInt_toInt]

end Lane

namespace Batch

variable {B : Backend} {n : Nat} {s : Signedness}

/-! ## Built-ins of signed words -/

theorem lane_wordNeg (x : Batch B .int n) (i : Fin (width B n)) :
    (-x).lane i = -(x.lane i : Word) := by
  refine (lane_minus i zeros x).trans ?_
  rw [zeros, lane_splat]
  exact BitVec.zero_sub _

theorem lane_wordSign (x : Batch B .int n) (i : Fin (width B n)) :
    x.wordSign.lane i = BitVec.ofInt 32 (BitVec.toInt (x.lane i)).sign := by
  rw [wordSign, lane_minus, lane_cast, lane_cast, lane_cmpGt, lane_cmpLt, zeros, lane_splat,
    Lane.lt_eq, Lane.lt_eq]
  exact Lane.sign_word _

theorem lane_wordAbs (x : Batch B .int n) (i : Fin (width B n)) :
    x.wordAbs.lane i = BitVec.ofInt 32 |BitVec.toInt (x.lane i)| := by
  rw [wordAbs, lane_assignMasked, lane_cmpGe, zeros, lane_splat, Lane.le_eq, lane_wordNeg]
  simp only [decide_eq_true_eq]
  exact Lane.absolute_word _

/-! ## All of it -/

/-- The comparisons, minimum, maximum and clamp of integer batches are those of the numbers in each
lane, signed or unsigned; a clamp between bounds out of order is the upper one. The sign of a signed
lane is -1, 0 or 1, its absolute value is not negative except for the least word, a lane and its
opposite have the same one, and both together multiply to the lane, in wrapping arithmetic. -/
theorem order_of_words (mode : Denormals) (a b : Batch B (.number (.integer s)) n) :
    (∀ i,
      ((a.cmpLt mode b).lane i = true ↔ Lane.toInt s (a.lane i) < Lane.toInt s (b.lane i)) ∧
      ((a.cmpLe mode b).lane i = true ↔ Lane.toInt s (a.lane i) ≤ Lane.toInt s (b.lane i)) ∧
      ((a.cmpGt mode b).lane i = true ↔ Lane.toInt s (a.lane i) > Lane.toInt s (b.lane i)) ∧
      ((a.cmpGe mode b).lane i = true ↔ Lane.toInt s (a.lane i) ≥ Lane.toInt s (b.lane i)) ∧
      ((a.cmpEq mode b).lane i = true ↔ Lane.toInt s (a.lane i) = Lane.toInt s (b.lane i)) ∧
      ((a.cmpNe mode b).lane i = true ↔ Lane.toInt s (a.lane i) ≠ Lane.toInt s (b.lane i)) ∧
      Lane.toInt s ((a.min b).lane i)
        = Min.min (Lane.toInt s (a.lane i)) (Lane.toInt s (b.lane i)) ∧
      Lane.toInt s ((a.max b).lane i)
        = Max.max (Lane.toInt s (a.lane i)) (Lane.toInt s (b.lane i))) ∧
    (∀ (low high : Batch B (.number (.integer s)) n) i,
      (Lane.toInt s (low.lane i) ≤ Lane.toInt s (high.lane i) →
        ClosestIn (Lane.toInt s (low.lane i)) (Lane.toInt s (high.lane i))
          (Lane.toInt s (a.lane i)) (Lane.toInt s ((a.clamp low high).lane i))) ∧
      (Lane.toInt s (low.lane i) > Lane.toInt s (high.lane i) →
        (a.clamp low high).lane i = high.lane i)) ∧
    ∀ x : Batch B .int n,
      (∀ i, BitVec.toInt (x.wordSign.lane i) ∈ ({-1, 0, 1} : Set ℤ) ∧
        (0 ≤ BitVec.toInt (x.wordAbs.lane i) ↔ x.lane i ≠ (0x80000000 : Word))) ∧
      (-x).wordAbs = x.wordAbs ∧ x.wordSign * x.wordAbs = x := by
  refine ⟨fun i => ?_, fun low high i => ?_, fun x =>
    ⟨fun i => ⟨?_, ?_⟩, ext_lane fun i => ?_, ext_lane fun i => ?_⟩⟩
  · simp only [lane_cmpLt, lane_cmpLe, lane_cmpGt, lane_cmpGe, lane_cmpEq, lane_cmpNe, lane_min,
      lane_max, Lane.lt_eq, Lane.le_eq, Lane.eq_eq, Lane.toInt_min, Lane.toInt_max,
      decide_eq_true_eq, Bool.not_eq_true', decide_eq_false_iff_not, gt_iff_lt, ge_iff_le, ne_eq,
      and_self]
  · have hclamp : Lane.toInt s ((a.clamp low high).lane i)
        = Min.min (Max.max (Lane.toInt s (a.lane i)) (Lane.toInt s (low.lane i)))
          (Lane.toInt s (high.lane i)) := by
      rw [Batch.clamp, lane_min, lane_max, Lane.toInt_min, Lane.toInt_max]
    refine ⟨fun h => hclamp ▸ closestIn_clamp h _, fun h => ?_⟩
    rw [← Lane.toInt_inj (s := s), hclamp, clamp_of_lt h]
  · rw [lane_wordSign]
    rcases Int.sign_trichotomy (BitVec.toInt (x.lane i)) with h | h | h <;> rw [h] <;> decide
  · rw [lane_wordAbs]
    exact Lane.absolute_nonneg _
  · rw [lane_wordAbs, lane_wordAbs, lane_wordNeg, Lane.absolute_neg]
  · rw [lane_times, lane_wordSign, lane_wordAbs]
    exact Lane.sign_mul_absolute _

/-- Unsigned lanes on both sides of the top bit, clamped between bounds in order in lane 0 and out
of order in lane 5. -/
theorem order_of_words_two_registers :
    let a : Batch .quad .uint 2 :=
      ⟨#v[#v[0x80000001, 7, 0xffffffff, 0], #v[5, 0x90000000, 0x7fffffff, 0x80000000]]⟩
    let low : Batch .quad .uint 2 := ⟨#v[#v[1, 9, 1, 1], #v[1, 0xf0000000, 1, 1]]⟩
    let high : Batch .quad .uint 2 :=
      ⟨#v[#v[0x80000000, 0xffffffff, 8, 8], #v[8, 3, 0xffffffff, 0xffffffff]]⟩
    let i : Fin (width .quad 2) := ⟨0, by decide⟩
    let j : Fin (width .quad 2) := ⟨5, by decide⟩
    Lane.toInt .unsigned (low.lane i) ≤ Lane.toInt .unsigned (high.lane i) ∧
      ClosestIn (Lane.toInt .unsigned (low.lane i)) (Lane.toInt .unsigned (high.lane i))
        (Lane.toInt .unsigned (a.lane i)) (Lane.toInt .unsigned ((a.clamp low high).lane i)) ∧
      Lane.toInt .unsigned (low.lane j) > Lane.toInt .unsigned (high.lane j) ∧
      (a.clamp low high).lane j = high.lane j ∧
      (a.clamp low high).toList = [0x80000000, 9, 8, 1, 5, 3, 0x7fffffff, 0x80000000] := by
  intro a low high i j
  have hin : Lane.toInt .unsigned (low.lane i) ≤ Lane.toInt .unsigned (high.lane i) := by
    decide +kernel
  have hout : Lane.toInt .unsigned (low.lane j) > Lane.toInt .unsigned (high.lane j) := by
    decide +kernel
  obtain ⟨-, hclamp, -⟩ := order_of_words .keep a a
  exact ⟨hin, (hclamp low high i).1 hin, hout, (hclamp low high j).2 hout, by decide +kernel⟩

end Batch

end Wavefront
