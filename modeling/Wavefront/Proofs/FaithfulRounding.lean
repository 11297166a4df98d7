import Wavefront.Proofs.CorrectRounding

/-!
# Faithful rounding

A product or a quotient may overflow, and then its infinity is nearest to nothing. What is left of
correct rounding is that no finite value is passed: the result is *faithful*. For this an infinity
counts with the value that its fields would stand for, `2^128`, which is beyond all finite ones.

* `faithful_ofRatio`: every exact result is rounded so, overflow included. From it `faithful_mul`,
  `faithful_div` and `faithful_sub`.
* `correctlyRounded_square`: what does not overflow is nearest.
* `signOfDifference_sub`: a rounded difference has the sign of the exact one, because nothing but
  zero is rounded to zero.
-/

namespace Wavefront

/-- `y` is `q` rounded without passing any finite value. -/
structure Faithful (q : ℚ) (y : Single) : Prop where
  /-- values below stay below -/
  le_of_le : ∀ z : Single, z.isFinite = true → z.value ≤ q → z.value ≤ y.value
  /-- values above stay above -/
  ge_of_ge : ∀ z : Single, z.isFinite = true → q ≤ z.value → y.value ≤ z.value

theorem CorrectlyRounded.faithful {q : ℚ} {y : Single} (h : CorrectlyRounded q y) : Faithful q y :=
  ⟨fun _ => h.le_of_le, fun _ => h.ge_of_ge⟩

namespace Faithful

variable {q : ℚ} {y z : Single}

/-- What is not rounded passes nothing. -/
theorem of_value (h : y.value = q) : Faithful q y := by
  subst h
  exact ⟨fun _ _ => id, fun _ _ => id⟩

/-- What has a finite value is rounded to it. -/
theorem value_eq (h : Faithful q y) (hz : z.isFinite = true) (hq : z.value = q) : y.value = q :=
  le_antisymm (hq ▸ h.ge_of_ge z hz hq.ge) (hq ▸ h.le_of_le z hz hq.le)

end Faithful

namespace Single

variable {num den : ℕ} {q : ℚ} {sign : Bool} {x y p : Single}

/-! ## Zero and infinity -/

theorem value_eq_zero_iff : x.value = 0 ↔ x.magnitude = 0 := by
  rw [← abs_eq_zero, ← mul_left_inj' unitsPerOne_cast_pos.ne', ← unitsOf_eq_abs_value, zero_mul,
    Nat.cast_eq_zero, unitsOf_strictMono.injective.eq_iff' unitsOf_zero]

theorem value_zero (sign : Bool) : (zero sign).value = 0 :=
  value_eq_zero_iff.2 (magnitude_ofParts (by decide))

/-- The sign bit of what is not zero is the sign of its value. -/
theorem negative_eq (h : x.value ≠ 0) : x.negative = decide (x.value < 0) := by
  have habs : 0 < x.absolute := by
    rw [← abs_value]
    exact abs_pos.2 h
  rw [value]
  cases x.negative
  · exact (decide_eq_false (not_lt.2 habs.le)).symm
  · exact (decide_eq_true (neg_lt_zero.2 habs)).symm

/-- Only zero is rounded to zero. -/
theorem nearestMagnitude_pos (hnum : 0 < num) : 0 < nearestMagnitude num 1 := by
  obtain ⟨m, hm, hnearest⟩ := exists_nearest num Nat.one_pos
  rw [hm]
  refine lt_min (Nat.pos_of_ne_zero ?_) (by decide)
  rintro rfl
  have hone : unitsOf 1 = 1 := by decide
  have hlow := two_mul_le_of_nearer (b := unitsOf 1)
    (by rw [unitsOf_zero, hone]; norm_num) (hnearest.le 1)
  rw [unitsOf_zero, hone, Nat.cast_one, div_one] at hlow
  have hnum : (1 : ℚ) ≤ num := Nat.one_le_cast.2 hnum
  norm_num at hlow
  linarith

theorem nearestMagnitude_zero (den : ℕ) : nearestMagnitude 0 den = 0 := by
  simp [nearestMagnitude, nearestEven]

/-- Finite values are below the positive infinity, and not below the negative one. -/
theorem lt_infinity (hx : x.isFinite = true) (hp : p.isInfinite = true) :
    x.value < p.value ↔ p.negative = false := by
  have hx := isFinite_iff.1 hx
  have hp := isInfinite_iff.1 hp
  rw [← not_le, value_le_iff, position, position, hp]
  cases p.negative <;> cases x.negative <;>
    simp only [Bool.false_eq_true, Bool.true_eq_false, if_false, if_true, iff_true, iff_false] <;>
    omega

/-! ## Exact results -/

/-- An infinity on the side of a number beyond all finite values is that number rounded. -/
theorem faithful_infinite (hy : y.isInfinite = true) (hneg : y.negative = decide (q < 0))
    (hbeyond : ∀ z : Single, z.isFinite = true → |z.value| < |q|) : Faithful q y := by
  refine ⟨fun z hz hle => ?_, fun z hz hle => ?_⟩
  · have hq : ¬q < 0 := fun hq => by
      have hlt := hbeyond z hz
      rw [abs_of_neg hq] at hlt
      linarith [(abs_lt.1 hlt).1]
    rw [decide_eq_false hq] at hneg
    exact ((lt_infinity hz hy).2 hneg).le
  · have hq : q < 0 := lt_of_not_ge fun hq => by
      have hlt := hbeyond z hz
      rw [abs_of_nonneg hq] at hlt
      linarith [(abs_lt.1 hlt).2]
    rw [decide_eq_true hq] at hneg
    exact not_lt.1 fun hlt => Bool.false_ne_true (((lt_infinity hz hy).1 hlt).symm.trans hneg)

/-- An exact result is rounded without passing a value. The sign of a zero is left open. -/
theorem faithful_ofRatio (hden : 0 < den) (hq : |q| * unitsPerOne = (num : ℚ) / den)
    (hsign : q ≠ 0 → sign = decide (q < 0)) : Faithful q (ofRatio .keep sign num den) := by
  rcases eq_or_ne q 0 with rfl | hq0
  · have hnum : num = 0 := by
      rw [abs_zero, zero_mul, eq_comm, div_eq_zero_iff, Nat.cast_eq_zero, Nat.cast_eq_zero] at hq
      exact hq.resolve_right hden.ne'
    have hvalue : (ofRatio .keep sign num den).value = 0 := by
      rw [value_eq_zero_iff, magnitude_ofRatio, hnum, nearestMagnitude_zero]
    exact Faithful.of_value hvalue
  · rcases Nat.lt_or_ge (nearestMagnitude num den) infiniteMagnitude with hfinite | hoverflow
    · exact (correctlyRounded_ofRatio hden hfinite hq (hsign hq0)).faithful
    · refine faithful_infinite ?_ (by rw [negative_ofRatio, hsign hq0]) fun z hz => ?_
      · rw [isInfinite_iff, magnitude_ofRatio]
        exact le_antisymm (nearestMagnitude_le num den) hoverflow
      · have hlt := lt_of_overflow hden hoverflow (isFinite_iff.1 hz)
        rw [unitsOf_eq_abs_value, ← hq] at hlt
        exact lt_of_mul_lt_mul_right hlt unitsPerOne_cast_pos.le

/-- A sign of a product is put together from the signs of its factors. -/
theorem bne_decide_neg {a b : ℚ} (h : a * b ≠ 0) :
    (decide (a < 0) != decide (b < 0)) = decide (a * b < 0) := by
  rcases lt_or_gt_of_ne (left_ne_zero_of_mul h) with ha | ha <;>
    rcases lt_or_gt_of_ne (right_ne_zero_of_mul h) with hb | hb
  · rw [decide_eq_true ha, decide_eq_true hb,
      decide_eq_false (mul_pos_of_neg_of_neg ha hb).le.not_gt]
    rfl
  · rw [decide_eq_true ha, decide_eq_false hb.le.not_gt,
      decide_eq_true (mul_neg_of_neg_of_pos ha hb)]
    rfl
  · rw [decide_eq_false ha.le.not_gt, decide_eq_true hb,
      decide_eq_true (mul_neg_of_pos_of_neg ha hb)]
    rfl
  · rw [decide_eq_false ha.le.not_gt, decide_eq_false hb.le.not_gt,
      decide_eq_false (mul_pos ha hb).le.not_gt]
    rfl

theorem faithful_mul (hx : x.isFinite = true) (hy : y.isFinite = true) :
    Faithful (x.value * y.value) (mul .keep x y) := by
  rw [mul_keep hx hy]
  refine faithful_ofRatio unitsPerOne_pos ?_ fun h => ?_
  · rw [abs_mul, abs_value, abs_value, absolute_eq_units, absolute_eq_units, Nat.cast_mul]
    field_simp
  · rw [negative_eq (left_ne_zero_of_mul h), negative_eq (right_ne_zero_of_mul h),
      bne_decide_neg h]

theorem faithful_div (hx : x.isFinite = true) (hy : y.isFinite = true) (hy0 : y.value ≠ 0) :
    Faithful (x.value / y.value) (div .keep x y) := by
  have hm : ¬y.magnitude = 0 := mt value_eq_zero_iff.2 hy0
  have hdiv : div .keep x y
      = ofRatio .keep (x.negative != y.negative) (x.units * unitsPerOne) y.units := by
    rw [div, operand_keep, operand_keep, isNaN_of_isFinite hx, isNaN_of_isFinite hy,
      isInfinite_of_isFinite hx, isInfinite_of_isFinite hy]
    simp only [Bool.or_self, Bool.false_eq_true, if_false, if_neg hm]
  have hpos : 0 < y.units := by
    rw [units, ← unitsOf_zero]
    exact unitsOf_strictMono (Nat.pos_of_ne_zero hm)
  rw [hdiv]
  refine faithful_ofRatio hpos ?_ fun h => ?_
  · rw [abs_div, abs_value, abs_value, absolute_eq_units, absolute_eq_units, Nat.cast_mul,
      div_div_div_cancel_right₀ unitsPerOne_cast_pos.ne', div_mul_eq_mul_div]
  · rw [div_eq_mul_inv] at h ⊢
    rw [negative_eq (left_ne_zero_of_mul h), negative_eq hy0, ← bne_decide_neg h]
    simp only [inv_lt_zero]

/-- A square that is not above a finite value is rounded correctly. -/
theorem correctlyRounded_square {z : Single} (hx : x.isFinite = true) (hz : z.isFinite = true)
    (hle : x.value * x.value ≤ |z.value|) :
    CorrectlyRounded (x.value * x.value) (mul .keep x x) := by
  have hunits :
      |x.value * x.value| * unitsPerOne = ((x.units * x.units : ℕ) : ℚ) / unitsPerOne := by
    rw [abs_mul, abs_value, absolute_eq_units, Nat.cast_mul]
    field_simp
  have hfinite : nearestMagnitude (x.units * x.units) unitsPerOne < infiniteMagnitude := by
    refine nearestMagnitude_lt_of_le unitsPerOne_pos hz ?_
    rw [← hunits, abs_mul_self, units, unitsOf_eq_abs_value]
    exact mul_le_mul_of_nonneg_right hle unitsPerOne_cast_pos.le
  rw [mul_keep hx hx, bne_self_eq_false]
  exact correctlyRounded_ofRatio unitsPerOne_pos hfinite hunits
    (decide_eq_false (mul_self_nonneg _).not_gt).symm

/-! ## Differences -/

/-- Values compare as their difference in units compares with zero. -/
theorem value_lt_iff_scaled : x.value < y.value ↔ x.scaled - y.scaled < 0 := by
  rw [value_eq_scaled, value_eq_scaled, div_lt_div_iff_of_pos_right unitsPerOne_cast_pos,
    Int.cast_lt, sub_neg]

theorem value_eq_iff_scaled : x.value = y.value ↔ x.scaled - y.scaled = 0 := by
  rw [value_eq_scaled, value_eq_scaled, div_left_inj' unitsPerOne_cast_pos.ne', Int.cast_inj,
    sub_eq_zero]

theorem faithful_sub (hx : x.isFinite = true) (hy : y.isFinite = true) :
    Faithful (x.value - y.value) (sub .keep x y) := by
  rw [sub_keep hx hy]
  split
  case isTrue hzero =>
    rw [value_eq_iff_scaled.2 hzero, sub_self]
    exact Faithful.of_value (value_zero _)
  case isFalse =>
    refine faithful_ofRatio Nat.one_pos ?_ fun _ => ?_
    · rw [value_eq_scaled, value_eq_scaled, ← sub_div, ← Int.cast_sub, abs_div,
        abs_of_pos unitsPerOne_cast_pos, div_mul_cancel₀ _ unitsPerOne_cast_pos.ne',
        Nat.cast_natAbs, Int.cast_abs, Nat.cast_one, div_one]
    · exact decide_eq_decide.2 (value_lt_iff_scaled.symm.trans sub_neg.symm)

/-- A rounded difference has the sign of the exact one, and is zero where that is. -/
structure SignOfDifference (x p r : Single) : Prop where
  /-- it is a number -/
  number : r.isNaN = false
  /-- zero stands for equal values -/
  zero : r.magnitude = 0 ↔ x.value = p.value
  /-- the sign for their order -/
  negative : r.magnitude ≠ 0 → r.negative = decide (x.value < p.value)

/-- The difference of finite values is exact before it is rounded. -/
theorem signOfDifference_finite (hx : x.isFinite = true) (hp : p.isFinite = true) :
    SignOfDifference x p (sub .keep x p) := by
  rw [sub_keep hx hp]
  split
  case isTrue hzero =>
    exact ⟨by cases x.negative && !p.negative <;> decide,
      iff_of_true (magnitude_ofParts (by decide)) (value_eq_iff_scaled.2 hzero),
      fun h => absurd (magnitude_ofParts (by decide)) h⟩
  case isFalse hzero =>
    have hpos := nearestMagnitude_pos (Int.natAbs_pos.2 hzero)
    refine ⟨isNaN_ofRatio _ _ _, iff_of_false ?_ (mt value_eq_iff_scaled.1 hzero), fun _ => ?_⟩
    · rw [magnitude_ofRatio]
      exact hpos.ne'
    · rw [negative_ofRatio]
      exact decide_eq_decide.2 value_lt_iff_scaled.symm

/-- A finite value less an infinity is the opposite infinity. -/
theorem sub_infinite (hx : x.isFinite = true) (hp : p.isInfinite = true) :
    sub .keep x p = p.neg := by
  have hinf : p.neg.isInfinite = true := by rwa [isInfinite, magnitude_neg]
  rw [sub_of_number (isNaN_of_isFinite hx) (isNaN_of_isInfinite hp), add, operand_keep,
    operand_keep, isNaN_of_isFinite hx, isInfinite_of_isFinite hx, isNaN_of_isInfinite hinf, hinf]
  rfl

theorem signOfDifference_infinite (hx : x.isFinite = true) (hp : p.isInfinite = true) :
    SignOfDifference x p (sub .keep x p) := by
  have hlt := lt_infinity hx hp
  have hm := isInfinite_iff.1 hp
  rw [sub_infinite hx hp]
  refine ⟨(isNaN_neg p).trans (isNaN_of_isInfinite hp), iff_of_false ?_ ?_, fun _ => ?_⟩
  · rw [magnitude_neg, hm]
    decide
  · exact fun h => (isFinite_iff.1 hx).ne ((abs_value_inj.1 (congrArg _ h)).trans hm)
  · rw [negative_neg]
    cases h : p.negative
    · exact (decide_eq_true (hlt.2 h)).symm
    · exact (decide_eq_false (mt hlt.1 (ne_false_of_eq_true h))).symm

/-- A number taken from a finite value leaves the sign of the exact difference. -/
theorem signOfDifference_sub (hx : x.isFinite = true) (hp : p.isNaN = false) :
    SignOfDifference x p (sub .keep x p) := by
  rcases trichotomy p with ⟨hfinite, -, -⟩ | ⟨-, hinf, -⟩ | ⟨-, -, hnan⟩
  · exact signOfDifference_finite hx hfinite
  · exact signOfDifference_infinite hx hinf
  · exact absurd hnan (ne_true_of_eq_false hp)

end Single

end Wavefront
