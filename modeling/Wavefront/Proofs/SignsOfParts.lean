import Wavefront.Proofs.FaithfulRounding
import Wavefront.Proofs.WholeAndFraction

/-!
# Signs of the parts

Both parts of a number are meant to have its sign. The whole part has: cutting off at the point
leaves the sign bit (`negative_trunc`). The fraction is a difference, and where something is behind
the point it has the sign as well (`negative_sub_trunc`). Where nothing is, equal values cancel, and
that leaves the positive zero under either sign (`sub_cancel`). The zero that infinite lanes get is
the positive one too. So the sign of a negative number is lost exactly where nothing is behind its
point.

Main statement: `modf_keeps_sign_iff`.
-/

namespace Wavefront

/-- Something is behind the point: `x` is finite and no integer. -/
def HasFraction (x : Single) : Prop := x.isFinite = true ∧ ∀ k : ℤ, x.value ≠ k

namespace Single

variable {x y : Single}

/-- Equal values of one sign cancel to the positive zero. -/
theorem sub_cancel (hx : x.isFinite = true) (hy : y.isFinite = true) (hvalue : x.value = y.value)
    (hsign : y.negative = x.negative) : sub .keep x y = zero false := by
  rw [sub_keep hx hy, if_pos (value_eq_iff_scaled.1 hvalue), hsign, Bool.and_not_self]

/-- Cutting off at the point leaves the sign bit, that of a NaN included. -/
theorem negative_trunc (x : Single) : x.trunc.negative = x.negative := by
  cases hx : x.isFinite
  · rw [trunc, toIntegral_of_not_isFinite _ hx]
  · exact (trunc_exact hx).2.1

/-- Nothing is behind the point of a value that is its own truncation. -/
theorem hasFraction_iff : HasFraction x ↔ x.isFinite = true ∧ x.value ≠ x.trunc.value := by
  refine and_congr_right fun hx => ?_
  obtain ⟨-, -, k, rfl, hk⟩ := (rounded_trunc x).finite hx
  constructor
  · intro h
    rw [hk]
    exact h _
  · intro hne k hvalue
    rw [hk, hvalue] at hne
    have hself : towardZero (k : ℚ) = k := by
      rw [towardZero, Int.ceil_intCast, Int.floor_intCast, ite_self]
    exact hne (congrArg Int.cast hself.symm)

/-- The rest of the units tells. -/
theorem hasFraction_iff_units :
    HasFraction x ↔ x.isFinite = true ∧ x.units % unitsPerOne ≠ 0 := by
  rw [hasFraction_iff]
  refine and_congr_right fun hx => not_congr ?_
  rw [value_eq_iff_scaled, ← Int.natAbs_eq_zero, natAbs_scaled_sub_trunc hx]

instance (x : Single) : Decidable (HasFraction x) := decidable_of_iff _ hasFraction_iff_units.symm

/-- What is behind the point has the sign of the number. -/
theorem negative_sub_trunc (h : HasFraction x) :
    (sub .keep x x.trunc).negative = x.negative := by
  obtain ⟨hx, hne⟩ := hasFraction_iff.1 h
  have ht := (trunc_exact hx).1
  have hdifference := signOfDifference_finite hx ht
  rw [hdifference.negative (mt hdifference.zero.1 hne),
    negative_eq fun h0 => h.2 0 (h0.trans Int.cast_zero.symm), decide_eq_decide]
  obtain ⟨-, -, k, rfl, hk⟩ := (rounded_trunc x).finite hx
  rw [hk, towardZero] at hne ⊢
  -- the truncation is on the side of zero
  split
  case isTrue hneg =>
    rw [if_pos hneg] at hne
    exact iff_of_true (lt_of_le_of_ne (Int.le_ceil _) hne) hneg
  case isFalse hpos => exact iff_of_false (Int.floor_le _).not_gt hpos

/-- Where nothing is behind the point, the positive zero is left. -/
theorem fraction_cancel (hx : x.isNaN = false) (h : ¬HasFraction x) :
    (if x.isInfinite then zero false else sub .keep x x.trunc) = zero false := by
  rcases trichotomy x with ⟨hfinite, hinf, -⟩ | ⟨-, hinf, -⟩ | ⟨-, -, hnan⟩
  · rw [hinf, if_neg Bool.false_ne_true]
    have hvalue : x.value = x.trunc.value :=
      not_not.1 fun hne => h (hasFraction_iff.2 ⟨hfinite, hne⟩)
    exact sub_cancel hfinite (trunc_exact hfinite).1 hvalue (negative_trunc x)
  · exact if_pos hinf
  · exact absurd hnan (ne_true_of_eq_false hx)

end Single

namespace Batch

variable {B : Backend} {n : Nat} {lib : MathLibrary}

/-- The whole part of a number keeps its sign bit. The fraction is the positive zero where nothing
is behind the point, so it keeps the sign bit exactly if something is, or the number is not
negative. The absolute value and the truncation of the library are taken to be exact. -/
theorem modf_keeps_sign_iff (hlib : lib.Exact) (x : Batch B .float n) (i : Fin (width B n))
    (hx : Single.isNaN (x.lane i) = false) :
    Single.negative ((x.modfWhole lib).lane i) = Single.negative (x.lane i) ∧
      (¬HasFraction (x.lane i) → (x.modfFract lib).lane i = Single.zero false) ∧
      (Single.negative ((x.modfFract lib).lane i) = Single.negative (x.lane i) ↔
        HasFraction (x.lane i) ∨ Single.negative (x.lane i) = false) := by
  have hwhole : Single.negative ((x.modfWhole lib).lane i) = Single.negative (x.lane i) := by
    rw [modfWhole, lane_trunc, hlib.truncLane_eq B hx]
    exact Single.negative_trunc _
  have hfract := lane_modfFract hlib x i
  rw [hlib.truncLane_eq B hx] at hfract
  have hsome (h : HasFraction (x.lane i)) :
      Single.negative ((x.modfFract lib).lane i) = Single.negative (x.lane i) := by
    rw [hfract, Single.isInfinite_of_isFinite h.1, if_neg Bool.false_ne_true]
    exact Single.negative_sub_trunc h
  have hnone (h : ¬HasFraction (x.lane i)) : (x.modfFract lib).lane i = Single.zero false := by
    rw [hfract]
    exact Single.fraction_cancel hx h
  refine ⟨hwhole, hnone, fun hsign => or_iff_not_imp_left.2 fun h => ?_, ?_⟩
  · rw [← hsign, hnone h]
    decide
  · rintro (h | h)
    · exact hsome h
    · by_cases hfraction : HasFraction (x.lane i)
      · exact hsome hfraction
      · rw [hnone hfraction, h]
        decide

/-- `-9/4`, `-2`, `3` and negative infinity. -/
theorem modf_keeps_sign_iff_integers :
    let x : Batch .quad .float 1 := ⟨#v[#v[0xc0100000, 0xc0000000, 0x40400000, 0xff800000]]⟩
    let lib := MathLibrary.double
    lib.Exact ∧ (∀ i, Single.isNaN (x.lane i) = false ∧
      Single.negative ((x.modfWhole lib).lane i) = Single.negative (x.lane i) ∧
      (Single.negative ((x.modfFract lib).lane i) = Single.negative (x.lane i) ↔
        HasFraction (x.lane i) ∨ Single.negative (x.lane i) = false)) ∧
      (x.modfWhole lib).toList.map Single.bits = [0xc0000000, 0xc0000000, 0x40400000, 0xff800000] ∧
      (x.modfFract lib).toList.map Single.bits = [0xbe800000, 0, 0, 0] := by
  intro x lib
  have hlib : lib.Exact := MathLibrary.lawful_double.toExact
  have hx : ∀ i, Single.isNaN (x.lane i) = false := by decide +kernel
  refine ⟨hlib, fun i => ?_, by decide +kernel, by decide +kernel⟩
  obtain ⟨hwhole, -, hfract⟩ := modf_keeps_sign_iff hlib x i (hx i)
  exact ⟨hx i, hwhole, hfract⟩

/-- So the fractions of `-2`, of the negative zero, of negative infinity and of `-2^24` have lost
the sign. -/
theorem modf_loses_sign :
    let x : Batch .quad .float 1 := ⟨#v[#v[0xc0000000, 0x80000000, 0xff800000, 0xcb800000]]⟩
    ∀ i, Single.isNaN (x.lane i) = false ∧ Single.negative (x.lane i) = true ∧
      Single.negative ((x.modfFract .double).lane i) = false := by
  intro x i
  refine ⟨?_, ?_, ?_⟩ <;> revert i <;> decide +kernel

end Batch

end Wavefront
