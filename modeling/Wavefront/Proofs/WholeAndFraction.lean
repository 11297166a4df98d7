import Wavefront.Proofs.BatchOps
import Wavefront.Proofs.RoundingDirections

/-!
# Whole part and fraction

A lane is split at its point: the whole part is cut off, and the fraction is what the subtraction
leaves. The subtraction is exact, because what is behind the point of a value has a magnitude
(`sub_trunc_exact`). Infinity minus itself is NaN, and there a mask puts zero instead; the mask is
that of the infinite lanes (`eq_abs_infinity`) and leaves NaN alone.

Main statement: `modf_splits`.
-/

namespace Wavefront

/-- A number is less than one away from the integer toward zero. -/
theorem abs_sub_towardZero_lt_one (q : ℚ) : |q - towardZero q| < 1 := by
  rw [towardZero, abs_lt]
  split
  · constructor <;> linarith [Int.le_ceil q, Int.ceil_lt_add_one q]
  · constructor <;> linarith [Int.floor_le q, Int.lt_floor_add_one q]

/-- `whole` and `fract` are the parts of `x` before and behind its point. -/
structure SplitAtPoint (x fract whole : Single) : Prop where
  /-- the whole part is the integer toward zero; infinity and NaN are their own -/
  cut : Rounded (fun q k => k = towardZero q) x whole
  /-- the parts add up to a finite value, and the fraction is less than one -/
  finite : x.isFinite = true →
    fract.isFinite = true ∧ fract.value + whole.value = x.value ∧ |fract.value| < 1
  /-- nothing is behind infinity -/
  infinite : x.isInfinite = true → fract = Single.zero false
  /-- NaN gives NaN -/
  nan : x.isNaN = true → fract.isNaN = true

namespace Single

variable {x : Single}

/-- A value is infinite when it equals infinity without its sign. -/
theorem eq_abs_infinity (x : Single) : eq .keep x.abs (infinity false) = x.isInfinite := by
  have hposition : (infinity false).position = infiniteMagnitude := by decide
  rw [eq, operand_keep, operand_keep, isNaN_abs, position, negative_abs, magnitude_abs, hposition]
  rcases trichotomy x with ⟨-, hi, hn⟩ | ⟨-, hi, hn⟩ | ⟨-, hi, hn⟩
  · have hne : x.magnitude ≠ infiniteMagnitude := beq_eq_false_iff_ne.1 hi
    rw [hn, hi, Bool.and_eq_false_iff]
    exact .inr (beq_eq_false_iff_ne.2 (mt Int.natCast_inj.1 hne))
  · rw [hn, hi, isInfinite_iff.1 hi]
    rfl
  · rw [hn, hi]
    rfl

/-- The truncation and what the subtraction leaves make up the value. -/
theorem value_sub_trunc (hx : x.isFinite = true) :
    (sub .keep x x.trunc).value + x.trunc.value = x.value := by
  rw [value_eq_scaled, value_eq_scaled, value_eq_scaled, (sub_trunc_exact hx).2, ← add_div,
    Int.cast_sub, sub_add_cancel]

/-- Any way to cut will do that is exact for numbers. -/
theorem splitAtPoint {cut : Single → Single} (hcut : Follows cut trunc) (x : Single) :
    SplitAtPoint x (if x.isInfinite then zero false else sub .keep x (cut x)) (cut x) := by
  have hwhole := rounded_trunc x
  refine ⟨hwhole.of_follows hcut, fun hx => ?_, fun hx => if_pos hx, fun hx => ?_⟩
  · rw [if_neg (Bool.not_eq_true _ ▸ isInfinite_of_isFinite hx),
      hcut.eq ((isNaN_trunc x).trans (isNaN_of_isFinite hx))]
    have hsum := value_sub_trunc hx
    obtain ⟨-, -, k, rfl, hk⟩ := hwhole.finite hx
    refine ⟨(sub_trunc_exact hx).1, hsum, ?_⟩
    rw [eq_sub_of_add_eq hsum, hk]
    exact abs_sub_towardZero_lt_one x.value
  · split
    case isTrue h => exact absurd hx (ne_true_of_eq_false (isNaN_of_isInfinite h))
    case isFalse => exact isNaN_sub _ _ (.inl hx)

end Single

namespace Batch

variable {B : Backend} {n : Nat} {lib : MathLibrary} (hlib : lib.Exact)
include hlib

theorem lane_isInfinite (x : Batch B .float n) (i : Fin (width B n)) :
    (x.isInfinite lib).lane i = Single.isInfinite (x.lane i) := by
  rw [← Single.eq_abs_infinity, ← hlib.absLane B]
  simp [isInfinite, Lane.eq]

theorem lane_modfFract (x : Batch B .float n) (i : Fin (width B n)) :
    (x.modfFract lib).lane i = if Single.isInfinite (x.lane i) then Single.zero false
      else Single.sub .keep (x.lane i) (Lane.truncLane lib B (x.lane i)) := by
  simp [modfFract, lane_isInfinite hlib, zeros, Kind.zeroLane, Lane.sub]

/-- Every lane is split at its point, whatever its pattern. The absolute value and the truncation of
the library are taken to be exact. -/
theorem modf_splits (x : Batch B .float n) (i : Fin (width B n)) :
    SplitAtPoint (x.lane i) ((x.modfFract lib).lane i) ((x.modfWhole lib).lane i) := by
  rw [lane_modfFract hlib, modfWhole, lane_trunc]
  exact Single.splitAtPoint (hlib.truncLane B) (x.lane i)

omit hlib

/-- `-9/4`, the value below `2^23`, infinity and a signaling NaN. -/
theorem modf_splits_boundaries :
    let x : Batch .quad .float 1 := ⟨#v[#v[0xc0100000, 0x4affffff, 0xff800000, 0x7f800001]]⟩
    let lib := MathLibrary.double
    lib.Exact ∧
      (∀ i ∈ [(0 : Fin 4), 1], Single.isFinite (x.lane i) = true ∧
        Single.value ((x.modfFract lib).lane i) + Single.value ((x.modfWhole lib).lane i)
          = Single.value (x.lane i)) ∧
      Single.isInfinite (x.lane (2 : Fin 4)) = true ∧
      (x.modfFract lib).lane (2 : Fin 4) = Single.zero false ∧
      Single.isNaN (x.lane (3 : Fin 4)) = true ∧
      Single.isNaN ((x.modfFract lib).lane (3 : Fin 4)) = true ∧
      Single.isNaN ((x.modfWhole lib).lane (3 : Fin 4)) = true ∧
      ((x.modfWhole lib).toList.take 3).map Single.bits = [0xc0000000, 0x4afffffe, 0xff800000] ∧
      ((x.modfFract lib).toList.take 3).map Single.bits = [0xbe800000, 0x3f000000, 0] := by
  intro x lib
  have hlib : lib.Exact := MathLibrary.lawful_double.toExact
  have hfinite : ∀ i ∈ [(0 : Fin 4), 1], Single.isFinite (x.lane i) = true := by decide +kernel
  have hinfinite : Single.isInfinite (x.lane (2 : Fin 4)) = true := by decide +kernel
  have hnan : Single.isNaN (x.lane (3 : Fin 4)) = true := by decide +kernel
  have hsplits := modf_splits hlib x
  exact ⟨hlib, fun i hi => ⟨hfinite i hi, ((hsplits i).finite (hfinite i hi)).2.1⟩,
    hinfinite, (hsplits (2 : Fin 4)).infinite hinfinite, hnan, (hsplits (3 : Fin 4)).nan hnan,
    (hsplits (3 : Fin 4)).cut.nan hnan, by decide +kernel, by decide +kernel⟩

end Batch

end Wavefront
