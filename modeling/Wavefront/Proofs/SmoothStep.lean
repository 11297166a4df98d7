import Wavefront.Proofs.BatchOps
import Wavefront.Proofs.FractionalPart
import Wavefront.Proofs.UnsignedCasts

/-!
# Smooth steps

Clamping brings every lane between its bounds, NaN included: the maximum answers the lower bound
when its operands are unordered, so the minimum never sees NaN (`between_clamp`). A smooth step
clamps the position `t` of a lane between two edges, whatever the quotient is, and so the polynomial
`t * t * (3 - 2 * t)` is only met from zero to one.

There it is at most one, but each of its operations rounds, and near one the square may be rounded
up. Up to one half the bound is far away. From one half on `2 * t`, `3 - 2 * t` and also `2 * t - 1`
have at most 24 bits, so the first two are not rounded; and the rounded square, being nearest, is
not farther from the square than `2 * t - 1` is, which is `(1 - t) ^ 2`. With so much added the
polynomial is still at most one (`polynomial_le_one`).

Main statement: `clamp_smoothstep_between`.
-/

namespace Wavefront

/-- `r` is a number from `low` to `high`, in the order of floats. -/
structure Between (low high r : Single) : Prop where
  /-- it is a number -/
  number : r.isNaN = false
  /-- not below the lower bound -/
  low_le : Single.le .keep low r = true
  /-- not above the upper bound -/
  le_high : Single.le .keep r high = true

namespace Single

variable {x y low high : Single}

/-! ## Clamping -/

theorem le_keep_eq_true :
    le .keep x y = true ↔ x.isNaN = false ∧ y.isNaN = false ∧ x.position ≤ y.position := by
  rw [le, operand_keep, operand_keep]
  simp only [Bool.and_eq_true, Bool.not_eq_true', decide_eq_true_eq, and_assoc]

theorem lt_keep_eq_true :
    lt .keep x y = true ↔ x.isNaN = false ∧ y.isNaN = false ∧ x.position < y.position := by
  rw [lt, operand_keep, operand_keep]
  simp only [Bool.and_eq_true, Bool.not_eq_true', decide_eq_true_eq, and_assoc]

/-- The maximum with a number is a number, whatever the other operand is. -/
theorem le_max (hlow : low.isNaN = false) (x : Single) :
    le .keep low (Lane.max (t := .float) x low) = true := by
  rw [Lane.max]
  split
  case isTrue hlt =>
    obtain ⟨-, hx, hlt⟩ := lt_keep_eq_true.1 hlt
    exact le_keep_eq_true.2 ⟨hlow, hx, hlt.le⟩
  case isFalse => exact le_keep_eq_true.2 ⟨hlow, hlow, le_rfl⟩

/-- Clamping brings everything between the bounds, NaN included. -/
theorem between_clamp (h : le .keep low high = true) (x : Single) :
    Between low high (Lane.min (t := .float) (Lane.max (t := .float) x low) high) := by
  obtain ⟨hlow, hhigh, -⟩ := le_keep_eq_true.1 h
  have hmax := le_max hlow x
  rw [Lane.min]
  split
  case isTrue hlt =>
    obtain ⟨hnumber, -, hlt⟩ := lt_keep_eq_true.1 hlt
    exact ⟨hnumber, hmax, le_keep_eq_true.2 ⟨hnumber, hhigh, hlt.le⟩⟩
  case isFalse => exact ⟨hhigh, h, le_keep_eq_true.2 ⟨hhigh, hhigh, le_rfl⟩⟩

theorem natAbs_position (x : Single) : x.position.natAbs = x.magnitude := by
  rw [position]
  split <;> omega

/-- Between the positions of finite values there are only finite values. -/
theorem isFinite_of_position (hlow : low.isFinite = true) (hhigh : high.isFinite = true)
    (hge : low.position ≤ x.position) (hle : x.position ≤ high.position) : x.isFinite = true := by
  rw [isFinite_iff, ← natAbs_position] at hlow hhigh ⊢
  omega

end Single

/-! ## Between finite bounds -/

namespace Between

variable {q l u : ℚ} {low high r : Single}

/-- What is between finite values is finite. -/
theorem finite (h : Between low high r) (hlow : Exact l low) (hhigh : Exact u high) :
    r.isFinite = true :=
  Single.isFinite_of_position hlow.finite hhigh.finite (Single.le_keep_eq_true.1 h.low_le).2.2
    (Single.le_keep_eq_true.1 h.le_high).2.2

theorem bounds (h : Between low high r) (hlow : Exact l low) (hhigh : Exact u high) :
    l ≤ r.value ∧ r.value ≤ u := by
  rw [← hlow.value, ← hhigh.value, Single.value_le_iff, Single.value_le_iff]
  exact ⟨(Single.le_keep_eq_true.1 h.low_le).2.2, (Single.le_keep_eq_true.1 h.le_high).2.2⟩

/-- What is rounded from between two values stays there. -/
theorem of_faithful (h : Faithful q r) (hlow : Exact l low) (hhigh : Exact u high) (hl : l ≤ q)
    (hu : q ≤ u) : Between low high r := by
  have hge := Single.value_le_iff.1 (h.le_of_le low hlow.finite (hlow.value.le.trans hl))
  have hle := Single.value_le_iff.1 (h.ge_of_ge high hhigh.finite (hu.trans hhigh.value.ge))
  have hr := Single.isNaN_of_isFinite
    (Single.isFinite_of_position hlow.finite hhigh.finite hge hle)
  exact ⟨hr, (Single.le_keep_iff (Single.isNaN_of_isFinite hlow.finite) hr).2 hge,
    (Single.le_keep_iff hr (Single.isNaN_of_isFinite hhigh.finite)).2 hle⟩

end Between

namespace Single

variable {t a w c : Single} {s : ℕ}

/-! ## Values of 24 bits -/

theorem exact_zero : Exact 0 (zero false) := ⟨by decide, value_zero false⟩

theorem exact_one : Exact 1 one := ⟨by decide, value_one⟩

theorem exact_two : Exact 2 two :=
  ⟨by decide, (value_of_units (k := 2) (by decide) (by decide)).trans Nat.cast_ofNat⟩

theorem exact_three : Exact 3 three :=
  ⟨by decide, (value_of_units (k := 3) (by decide) (by decide)).trans Nat.cast_ofNat⟩

/-- Up to two every multiple of `2^-23` is a value. -/
theorem exists_multiple (hs : s ≤ 2 ^ 24) : ∃ z, Exact (s / 2 ^ 23) z := by
  rcases Nat.lt_or_eq_of_le hs with hlt | rfl
  · obtain ⟨m, hm, hunits⟩ := exists_finite (s := s) (k := 126) hlt (by decide)
    refine ⟨ofParts false m, isFinite_ofParts hm, ?_⟩
    rw [value, negative_ofParts (lt_of_le_infinite (Nat.le_of_lt hm)), if_neg Bool.false_ne_true,
      absolute_eq_units, units_ofParts hm, hunits, Nat.shiftLeft_eq, unitsPerOne_cast]
    push_cast
    field_simp
    norm_num
  · refine ⟨two, exact_two.finite, ?_⟩
    rw [exact_two.value]
    norm_num

/-- From one half to one every value is a multiple of `2^-24`. -/
theorem exists_count (hlow : 1 / 2 ≤ t.value) (hhigh : t.value ≤ 1) :
    ∃ j : ℕ, 2 ^ 23 ≤ j ∧ j ≤ 2 ^ 24 ∧ t.value = j / 2 ^ 24 := by
  have hunits := unitsOf_eq_abs_value t
  rw [abs_of_nonneg (by linarith), unitsPerOne_cast] at hunits
  rcases unitsOf_grid 125 t.magnitude with ⟨j, hj⟩ | ⟨-, hlt⟩
  · rw [hj] at hunits
    push_cast at hunits
    have hvalue : t.value * 2 ^ 24 = j := by linarith
    have hjlow : ((2 ^ 23 : ℕ) : ℚ) ≤ j := by
      push_cast
      linarith
    have hjhigh : (j : ℚ) ≤ (2 ^ 24 : ℕ) := by
      push_cast
      linarith
    exact ⟨j, Nat.cast_le.1 hjlow, Nat.cast_le.1 hjhigh, eq_div_of_mul_eq (by positivity) hvalue⟩
  · -- below the binade a value is less than one half
    have hlt : (unitsOf t.magnitude : ℚ) < 2 ^ 148 := by exact_mod_cast hlt
    linarith

/-! ## The polynomial -/

/-- With the error of the square added the polynomial is still at most one. -/
theorem polynomial_le_one {t a : ℚ} (hlow : 1 / 2 ≤ t) (hhigh : t ≤ 1)
    (ha : |t * t - a| ≤ |t * t - (2 * t - 1)|) : a * (3 - 2 * t) ≤ 1 := by
  have herror : |t * t - (2 * t - 1)| = (1 - t) ^ 2 := by
    rw [show t * t - (2 * t - 1) = (1 - t) ^ 2 by ring, abs_of_nonneg (sq_nonneg _)]
  rw [herror] at ha
  calc a * (3 - 2 * t) ≤ (t * t + (1 - t) ^ 2) * (3 - 2 * t) :=
        mul_le_mul_of_nonneg_right (by linarith [(abs_le.1 ha).1]) (by linarith)
    _ = 1 - 2 * (1 - t) ^ 2 * (2 * t - 1) := by ring
    _ ≤ 1 := sub_le_self 1 (mul_nonneg (by positivity) (by linarith))

/-- From one half on only the square is rounded, and `2 * t - 1` is a value. -/
theorem rest_exact (hlow : 1 / 2 ≤ t.value) (hhigh : t.value ≤ 1)
    (hw : Faithful (2 * t.value) w) (hc : Faithful (3 - w.value) c) :
    c.value = 3 - 2 * t.value ∧ ∃ z, Exact (2 * t.value - 1) z := by
  obtain ⟨j, hjlow, hjhigh, hj⟩ := exists_count hlow hhigh
  obtain ⟨double, hdouble⟩ := exists_multiple hjhigh
  obtain ⟨rest, hrest⟩ := exists_multiple (s := 3 * 2 ^ 23 - j) (by omega)
  obtain ⟨z, hz⟩ := exists_multiple (s := j - 2 ^ 23) (by omega)
  have hw : w.value = 2 * t.value := hw.value_eq hdouble.finite <| by
    rw [hdouble.value, hj]
    ring
  refine ⟨?_, z, hz.finite, ?_⟩
  · rw [hw] at hc
    refine hc.value_eq hrest.finite ?_
    rw [hrest.value, hj, Nat.cast_sub (by omega)]
    push_cast
    ring
  · rw [hz.value, hj, Nat.cast_sub hjlow]
    push_cast
    ring

/-- The exact product of the rounded factors is at most one. -/
theorem product_le_one (hlow : 0 ≤ t.value) (hhigh : t.value ≤ 1)
    (ha : CorrectlyRounded (t.value * t.value) a) (hw : Faithful (2 * t.value) w)
    (hc : Faithful (3 - w.value) c) (hc0 : 0 ≤ c.value) (hc3 : c.value ≤ 3) :
    a.value * c.value ≤ 1 := by
  rcases le_total t.value (1 / 2) with hsmall | hlarge
  · obtain ⟨quarter, hquarter⟩ := exists_multiple (s := 2 ^ 21) (by decide)
    have hquarter' : quarter.value = 1 / 2 * (1 / 2) := by
      rw [hquarter.value]
      norm_num
    have hle : t.value * t.value ≤ 1 / 2 * (1 / 2) := mul_le_mul hsmall hsmall hlow (by norm_num)
    have ha := ha.ge_of_ge hquarter.finite (hle.trans hquarter'.ge)
    calc a.value * c.value ≤ 1 / 2 * (1 / 2) * 3 :=
          mul_le_mul (ha.trans hquarter'.le) hc3 hc0 (by norm_num)
      _ ≤ 1 := by norm_num
  · obtain ⟨hexact, z, hz⟩ := rest_exact hlarge hhigh hw hc
    have hnear := ha.le z hz.finite
    rw [hz.value] at hnear
    rw [hexact]
    exact polynomial_le_one hlarge hhigh hnear

/-- The rounded polynomial stays between zero and one. -/
theorem between_polynomial (ht : Between (zero false) one t) :
    Between (zero false) one
      (mul .keep (mul .keep t t) (sub .keep three (mul .keep two t))) := by
  obtain ⟨h0, h1⟩ := ht.bounds exact_zero exact_one
  have hfinite := ht.finite exact_zero exact_one
  have hw : Faithful (2 * t.value) (mul .keep two t) := by
    rw [← exact_two.value]
    exact faithful_mul exact_two.finite hfinite
  have hdouble : Between (zero false) two (mul .keep two t) :=
    .of_faithful hw exact_zero exact_two (by linarith) (by linarith)
  obtain ⟨hw0, hw2⟩ := hdouble.bounds exact_zero exact_two
  have hc : Faithful (3 - (mul .keep two t).value) (sub .keep three (mul .keep two t)) := by
    rw [← exact_three.value]
    exact faithful_sub exact_three.finite (hdouble.finite exact_zero exact_two)
  have hrest : Between one three (sub .keep three (mul .keep two t)) :=
    .of_faithful hc exact_one exact_three (by linarith) (by linarith)
  obtain ⟨hc1, hc3⟩ := hrest.bounds exact_one exact_three
  have hle : t.value * t.value ≤ 1 := mul_le_one₀ h1 h0 h1
  have ha : CorrectlyRounded (t.value * t.value) (mul .keep t t) := by
    refine correctlyRounded_square hfinite exact_one.finite ?_
    rwa [exact_one.value, abs_one]
  have hsquare : Between (zero false) one (mul .keep t t) :=
    .of_faithful ha.faithful exact_zero exact_one (mul_self_nonneg _) hle
  obtain ⟨ha0, -⟩ := hsquare.bounds exact_zero exact_one
  exact .of_faithful (faithful_mul ha.finite (hrest.finite exact_one exact_three)) exact_zero
    exact_one (mul_nonneg ha0 (by linarith))
    (product_le_one h0 h1 ha hw hc (by linarith) hc3)

end Single

namespace Batch

variable {B : Backend} {n : Nat}

theorem lane_clamp (x low high : Batch B .float n) (i : Fin (width B n)) :
    (x.clamp low high).lane i
      = Lane.min (t := .float) (Lane.max (t := .float) (x.lane i) (low.lane i)) (high.lane i) := by
  rw [clamp, lane_min, lane_max]

theorem lane_smoothstep (edge0 edge1 x : Batch B .float n) (i : Fin (width B n)) :
    (smoothstep edge0 edge1 x).lane i =
      let t := (ramp edge0 edge1 x).lane i
      Single.mul .keep (Single.mul .keep t t)
        (Single.sub .keep .three (Single.mul .keep .two t)) := by
  simp [smoothstep, Lane.mul, Lane.sub]

/-- A lane is clamped between ordered bounds, NaN included, and a smooth step is between zero and
one whatever its edges are: equal, in reverse order, infinite or no numbers. -/
theorem clamp_smoothstep_between (x : Batch B .float n) (i : Fin (width B n)) :
    (∀ low high : Batch B .float n, Single.le .keep (low.lane i) (high.lane i) = true →
      Between (low.lane i) (high.lane i) ((x.clamp low high).lane i)) ∧
    ∀ edge0 edge1 : Batch B .float n,
      Between (.zero false) .one ((smoothstep edge0 edge1 x).lane i) := by
  have hclamp (x low high : Batch B .float n)
      (h : Single.le .keep (low.lane i) (high.lane i) = true) :
      Between (low.lane i) (high.lane i) ((x.clamp low high).lane i) := by
    rw [lane_clamp]
    exact Single.between_clamp h _
  refine ⟨fun low high => hclamp x low high, fun edge0 edge1 => ?_⟩
  have hramp := hclamp ((x - edge0) / (edge1 - edge0)) zeros (splat Single.one)
  rw [lane_splat, zeros, lane_splat] at hramp
  rw [lane_smoothstep]
  exact Single.between_polynomial (hramp (by decide))

/-- NaN, both infinities and the value below one; the edges of the second are equal, and those of
the third in reverse order. The step of the last is rounded to one. -/
theorem clamp_smoothstep_between_unordered :
    let x : Batch .quad .float 1 := ⟨#v[#v[0x7fc00000, 0x7f800000, 0xff800000, 0x3f7fffff]]⟩
    let low : Batch .quad .float 1 := ⟨#v[#v[0x3f800000, 0xff800000, 0xbf800000, 0x3f7fffff]]⟩
    let high : Batch .quad .float 1 := ⟨#v[#v[0x40000000, 0x40000000, 0x7f800000, 0x3f7fffff]]⟩
    let edge0 : Batch .quad .float 1 := ⟨#v[#v[0, 0x3f800000, 0x40000000, 0]]⟩
    let edge1 : Batch .quad .float 1 := ⟨#v[#v[0x3f800000, 0x3f800000, 0x3f800000, 0x3f800000]]⟩
    (∀ i, Single.le .keep (low.lane i) (high.lane i) = true ∧
      Between (low.lane i) (high.lane i) ((x.clamp low high).lane i) ∧
      Between (.zero false) .one ((smoothstep edge0 edge1 x).lane i)) ∧
      (x.clamp low high).toList.map Single.bits
        = [0x3f800000, 0x40000000, 0xbf800000, 0x3f7fffff] ∧
      (smoothstep edge0 edge1 x).toList.map Single.bits
        = [0, 0x3f800000, 0x3f800000, 0x3f800000] := by
  intro x low high edge0 edge1
  have hle : ∀ i, Single.le .keep (low.lane i) (high.lane i) = true := by decide +kernel
  refine ⟨fun i => ?_, by decide +kernel, by decide +kernel⟩
  obtain ⟨hclamp, hsmooth⟩ := clamp_smoothstep_between x i
  exact ⟨hle i, hclamp low high (hle i), hsmooth edge0 edge1⟩

end Batch

end Wavefront
