import Mathlib.Data.Nat.Cast.Order.Field
import Wavefront.Proofs.IntegerRounding

/-!
# Correct rounding

Every exact result is rounded in one place, `Single.ofRatio`, and there it becomes the nearest
finite value, the one with an even fraction when two are equally near.

Significands of one binade are rounded like integers, and the magnitudes of that binade are their
multiples of the last place. What is left to see is that no magnitude below the binade is nearer:
these are below its first value, which is no farther (`nearest_of_grid`).

* `nearestMagnitude_isNearest`: the nearest of all magnitudes.
* `nearestMagnitude_lt_of_le`: what is not above a finite value does not become infinite.
* `correctlyRounded_ofRatio`: the nearest of all values, of both signs.
* `CorrectlyRounded.unique`: there is one such value.
* `CorrectlyRounded.le_of_le`, `CorrectlyRounded.mono`: rounding keeps the order, and moves nothing
  past a value.
-/

namespace Wavefront

/-- `y` is `q` rounded once: the nearest finite value, the one with an even fraction when another
value is as near, under the sign of `q`. -/
structure CorrectlyRounded (q : ℚ) (y : Single) : Prop where
  /-- it is finite -/
  finite : y.isFinite = true
  /-- no finite value is nearer -/
  le : ∀ z : Single, z.isFinite = true → |q - y.value| ≤ |q - z.value|
  /-- when another value is as near, the fraction is even -/
  tie : ∀ z : Single, z.isFinite = true → z.value ≠ y.value → |q - z.value| = |q - y.value| →
    Even y.fractionField
  /-- the sign is that of the exact value -/
  sign : y.negative = decide (q < 0)

namespace Single

variable {num den b m w : ℕ} {p q : ℚ} {sign : Bool}

/-! ## The grid of a binade -/

/-- The magnitudes from a binade on are multiples of its last place. -/
theorem unitsOf_grid (b m : ℕ) :
    (∃ j, unitsOf m = j * 2 ^ b) ∨ (0 < b ∧ unitsOf m < normalMagnitude * 2 ^ b) := by
  rcases Nat.eq_zero_or_pos b with rfl | hb
  · exact .inl ⟨unitsOf m, (Nat.mul_one _).symm⟩
  · rcases Nat.lt_or_ge m normalMagnitude with hm | hm
    · refine .inr ⟨hb, ?_⟩
      rw [unitsOf_of_lt hm]
      exact Nat.lt_of_lt_of_le hm (Nat.le_mul_of_pos_right _ (Nat.two_pow_pos b))
    · obtain ⟨e, f, hf, rfl⟩ := exists_normal hm
      rw [unitsOf_normal hf, Nat.shiftLeft_eq]
      rcases Nat.lt_or_ge e b with he | he
      · refine .inr ⟨hb, ?_⟩
        calc (normalMagnitude + f) * 2 ^ e < 2 * normalMagnitude * 2 ^ e :=
              Nat.mul_lt_mul_of_pos_right (by omega) (Nat.two_pow_pos e)
          _ = normalMagnitude * 2 ^ (e + 1) := by ring
          _ ≤ normalMagnitude * 2 ^ b := Nat.mul_le_mul_left _ (Nat.pow_le_pow_right (by decide) he)
      · refine .inl ⟨(normalMagnitude + f) * 2 ^ (e - b), ?_⟩
        rw [Nat.mul_assoc, ← Nat.pow_add, Nat.sub_add_cancel he]

/-- A significand behind its binade counts its last place, up to the first value of the next
binade. -/
theorem unitsOf_binade (hlow : b = 0 ∨ normalMagnitude ≤ w) (hhigh : w ≤ 2 * normalMagnitude) :
    unitsOf (b * normalMagnitude + w) = w * 2 ^ b := by
  rcases Nat.lt_or_ge w normalMagnitude with hw | hw
  · obtain rfl : b = 0 := hlow.resolve_right (Nat.not_le.2 hw)
    rw [Nat.zero_mul, Nat.zero_add, unitsOf_of_lt hw, Nat.pow_zero, Nat.mul_one]
  · rcases Nat.lt_or_eq_of_le hhigh with hlt | rfl
    · have hm : b * normalMagnitude + w = (b + 1) * normalMagnitude + (w - normalMagnitude) := by
        rw [Nat.succ_mul]
        omega
      rw [hm, unitsOf_normal (by omega), Nat.shiftLeft_eq, Nat.add_sub_cancel' hw]
    · have hm : b * normalMagnitude + 2 * normalMagnitude = (b + 1 + 1) * normalMagnitude + 0 := by
        ring
      rw [hm, unitsOf_normal (by decide), Nat.shiftLeft_eq]
      ring

/-- The nearest multiple of the last place of a binade is nearest of all magnitudes. -/
theorem nearest_of_grid (hw : IsNearestEven (p / 2 ^ b) w)
    (hunits : unitsOf (b * normalMagnitude + w) = w * 2 ^ b)
    (hp : b = 0 ∨ (normalMagnitude : ℚ) * 2 ^ b ≤ p) :
    NearestAmong (fun m => (unitsOf m : ℚ)) (fun m _ => Even m) p (b * normalMagnitude + w) := by
  have hc : (0 : ℚ) < 2 ^ b := by positivity
  have hscale : ∀ j : ℤ, |p - j * 2 ^ b| = 2 ^ b * |p / 2 ^ b - j| := by
    intro j
    rw [← abs_of_pos hc, ← abs_mul, abs_of_pos hc, mul_sub, mul_div_cancel₀ _ hc.ne', mul_comm]
  have hvalue : (unitsOf (b * normalMagnitude + w) : ℚ) = (w : ℤ) * 2 ^ b := by
    rw [hunits]
    push_cast
    rfl
  have hle : ∀ j : ℤ, |p - unitsOf (b * normalMagnitude + w)| ≤ |p - j * 2 ^ b| := by
    intro j
    rw [hvalue, hscale, hscale]
    exact mul_le_mul_of_nonneg_left (hw.le j) hc.le
  -- what is below the binade is farther than its first value
  have hbelow : ∀ m, (0 < b ∧ unitsOf m < normalMagnitude * 2 ^ b) →
      |p - unitsOf (b * normalMagnitude + w)| < |p - unitsOf m| := by
    rintro m ⟨hb, hm⟩
    have hm : (unitsOf m : ℚ) < normalMagnitude * 2 ^ b := by exact_mod_cast hm
    have hp := hp.resolve_left hb.ne'
    refine (hle normalMagnitude).trans_lt ?_
    rw [Int.cast_natCast, abs_of_nonneg (by linarith), abs_of_nonneg (by linarith)]
    linarith
  refine ⟨fun m => ?_, fun m hne heq => ?_⟩
  · rcases unitsOf_grid b m with ⟨j, hj⟩ | hm
    · have := hle j
      rwa [Int.cast_natCast, show (j : ℚ) * 2 ^ b = unitsOf m by rw [hj]; push_cast; rfl] at this
    · exact (hbelow m hm).le
  · rcases unitsOf_grid b m with ⟨j, hj⟩ | hm
    · have hj' : (unitsOf m : ℚ) = (j : ℤ) * 2 ^ b := by
        rw [hj]
        push_cast
        rfl
      have hjw : (j : ℤ) ≠ w := by
        rintro h
        rw [Int.natCast_inj.1 h, ← hunits] at hj
        exact hne (unitsOf_strictMono.injective hj)
      rw [hj', hvalue, hscale, hscale] at heq
      have heven := hw.tie j hjw (mul_left_cancel₀ hc.ne' heq)
      exact (Even.mul_left (by decide) b).add ((Int.even_coe_nat w).1 heven)
    · exact absurd heq (hbelow m hm).ne'

/-! ## The binade of a quotient -/

theorem nearestEven_bounds (num den : ℕ) :
    num / den ≤ nearestEven num den ∧ nearestEven num den ≤ num / den + 1 := by
  rw [nearestEven]
  split
  · omega
  · split <;> omega

/-- The binade is the one of the integer part, so the significand has 24 bits, or fewer when there
is no smaller binade. -/
theorem significand_bounds (hb : b = Nat.log2 (num / den) - 23) :
    num / (den <<< b) < 2 * normalMagnitude ∧
      (b = 0 ∨ normalMagnitude ≤ num / (den <<< b)) := by
  rw [Nat.shiftLeft_eq, ← Nat.div_div_eq_div_mul]
  constructor
  · refine Nat.div_lt_of_lt_mul (Nat.lt_of_lt_of_le Nat.lt_log2_self ?_)
    rw [show 2 * normalMagnitude = 2 ^ 24 by decide, ← Nat.pow_add]
    exact Nat.pow_le_pow_right (by decide) (by omega)
  · rcases Nat.eq_zero_or_pos b with h | h
    · exact .inl h
    · refine .inr ((Nat.le_div_iff_mul_le (Nat.two_pow_pos b)).2 ?_)
      have hne : num / den ≠ 0 := by
        intro hzero
        rw [hzero, Nat.log2_zero] at hb
        omega
      rw [show normalMagnitude = 2 ^ 23 by decide, ← Nat.pow_add,
        show 23 + b = Nat.log2 (num / den) by omega]
      exact Nat.log2_self_le hne

/-- Were there no infinity, the magnitude of a quotient would always be the nearest of all. -/
theorem exists_nearest (num : ℕ) (hden : 0 < den) :
    ∃ m, nearestMagnitude num den = min m infiniteMagnitude ∧
      NearestAmong (fun m => (unitsOf m : ℚ)) (fun m _ => Even m) ((num : ℚ) / den) m := by
  obtain ⟨b, hb⟩ : ∃ b, b = Nat.log2 (num / den) - 23 := ⟨_, rfl⟩
  obtain ⟨hhigh, hlow⟩ := significand_bounds hb
  obtain ⟨hle, hge⟩ := nearestEven_bounds num (den <<< b)
  have hdiv : (num : ℚ) / den / 2 ^ b = num / (den <<< b : ℕ) := by
    rw [Nat.shiftLeft_eq, div_div]
    push_cast
    rfl
  have hden' : 0 < den <<< b := by
    rw [Nat.shiftLeft_eq]
    exact Nat.mul_pos hden (Nat.two_pow_pos b)
  refine ⟨b * normalMagnitude + nearestEven num (den <<< b), by rw [nearestMagnitude, ← hb],
    nearest_of_grid ?_ (unitsOf_binade (hlow.imp_right (·.trans hle)) (by omega)) ?_⟩
  · rw [hdiv]
    exact nearestEven_isNearest hden'
  · refine hlow.imp_right fun h => ?_
    have hc : (0 : ℚ) < 2 ^ b := by positivity
    rw [← le_div_iff₀ hc, hdiv]
    exact (Nat.cast_le.2 h).trans Nat.cast_div_le

/-- Short of infinity it is. -/
theorem nearestMagnitude_isNearest (hden : 0 < den)
    (hfinite : nearestMagnitude num den < infiniteMagnitude) :
    NearestAmong (fun m => (unitsOf m : ℚ)) (fun m _ => Even m) ((num : ℚ) / den)
      (nearestMagnitude num den) := by
  obtain ⟨m, hm, hnearest⟩ := exists_nearest num hden
  rw [hm] at hfinite ⊢
  rwa [Nat.min_eq_left (by omega)]

/-- What is rounded to infinity is above all finite values. -/
theorem lt_of_overflow (hden : 0 < den) (h : infiniteMagnitude ≤ nearestMagnitude num den)
    (hm : m < infiniteMagnitude) : (unitsOf m : ℚ) < num / den := by
  obtain ⟨w, hw, hnearest⟩ := exists_nearest num hden
  have hlt : (unitsOf m : ℚ) < unitsOf w := Nat.cast_lt.2 (unitsOf_strictMono (by omega))
  linarith [le_two_mul_of_nearer hlt (hnearest.le m)]

/-- What is not above a finite value is not rounded to infinity. -/
theorem nearestMagnitude_lt_of_le {z : Single} (hden : 0 < den) (hz : z.isFinite = true)
    (h : (num : ℚ) / den ≤ z.units) : nearestMagnitude num den < infiniteMagnitude := by
  by_contra hoverflow
  exact (lt_of_overflow hden (not_lt.1 hoverflow) (isFinite_iff.1 hz)).not_ge h

/-! ## Signs -/

theorem unitsOf_eq_abs_value (z : Single) :
    (unitsOf z.magnitude : ℚ) = |z.value| * unitsPerOne := by
  rw [abs_value, absolute_eq_units, div_mul_cancel₀ _ unitsPerOne_cast_pos.ne']
  rfl

theorem abs_value_inj {x y : Single} : |x.value| = |y.value| ↔ x.magnitude = y.magnitude := by
  rw [← mul_left_inj' unitsPerOne_cast_pos.ne', ← unitsOf_eq_abs_value, ← unitsOf_eq_abs_value,
    Nat.cast_inj, unitsOf_strictMono.injective.eq_iff]

/-- The fraction is the end of the magnitude. -/
theorem even_fractionField (y : Single) : Even y.fractionField ↔ Even y.magnitude := by
  rw [Nat.even_iff, Nat.even_iff, fractionField, normalMagnitude]
  omega

/-- A number is at least as far from a value as their absolute values are, counted in units. -/
theorem abs_sub_units_le (q : ℚ) (z : Single) :
    |(|q| * unitsPerOne) - unitsOf z.magnitude| ≤ |q - z.value| * unitsPerOne := by
  rw [unitsOf_eq_abs_value, ← sub_mul, abs_mul, abs_of_pos unitsPerOne_cast_pos]
  exact mul_le_mul_of_nonneg_right (abs_abs_sub_abs_le q z.value) unitsPerOne_cast_pos.le

/-- Under one sign it is no farther. -/
theorem abs_sub_units (q : ℚ) {y : Single} (hsign : y.negative = decide (q < 0)) :
    |(|q| * unitsPerOne) - unitsOf y.magnitude| = |q - y.value| * unitsPerOne := by
  have hsame : |(|q| - |y.value|)| = |q - y.value| := by
    rw [abs_value, value, hsign]
    by_cases hq : q < 0
    · rw [decide_eq_true hq, if_pos rfl, abs_of_neg hq, sub_neg_eq_add, ← abs_neg, neg_sub,
        sub_neg_eq_add, add_comm]
    · rw [decide_eq_false hq, if_neg Bool.false_ne_true, abs_of_nonneg (not_lt.1 hq)]
  rw [unitsOf_eq_abs_value, ← sub_mul, abs_mul, abs_of_pos unitsPerOne_cast_pos, hsame]

theorem eq_zero_of_nearest
    (h : NearestAmong (fun m => (unitsOf m : ℚ)) (fun m _ => Even m) 0 m) : m = 0 := by
  have hm : unitsOf m = 0 := by simpa [unitsOf_zero] using h.le 0
  exact unitsOf_strictMono.injective (hm.trans unitsOf_zero.symm)

/-- An exact result that does not overflow is rounded correctly. -/
theorem correctlyRounded_ofRatio (hden : 0 < den)
    (hfinite : nearestMagnitude num den < infiniteMagnitude)
    (hq : |q| * unitsPerOne = (num : ℚ) / den) (hsign : sign = decide (q < 0)) :
    CorrectlyRounded q (ofRatio .keep sign num den) := by
  have hnearest := nearestMagnitude_isNearest hden hfinite
  obtain ⟨y, hy⟩ : ∃ y, y = ofRatio .keep sign num den := ⟨_, rfl⟩
  have hm : y.magnitude = nearestMagnitude num den := by rw [hy, magnitude_ofRatio]
  have hs : y.negative = decide (q < 0) := by rw [hy, negative_ofRatio, hsign]
  rw [← hy]
  rw [← hq, ← hm] at hnearest
  have hdist := abs_sub_units q hs
  refine ⟨isFinite_iff.2 (hm ▸ hfinite), fun z _ => ?_, fun z _ hne heq => ?_, hs⟩
  · refine le_of_mul_le_mul_right ?_ unitsPerOne_cast_pos
    rw [← hdist]
    exact (hnearest.le z.magnitude).trans (abs_sub_units_le q z)
  · rw [even_fractionField]
    by_cases hz : z.magnitude = y.magnitude
    · -- the value mirrored is as near as the value itself only to zero
      have hneg : z.value = -y.value := (abs_eq_abs.1 (abs_value_inj.2 hz)).resolve_left hne
      rw [hneg, sub_neg_eq_add] at heq
      have hq0 : q = 0 := by
        rcases abs_eq_abs.1 heq with h | h
        · exact absurd (by linarith : z.value = y.value) hne
        · linarith
      rw [hq0, abs_zero, zero_mul] at hnearest
      rw [eq_zero_of_nearest hnearest]
      exact Even.zero
    · refine hnearest.tie z.magnitude hz (le_antisymm ?_ (hnearest.le z.magnitude))
      rw [hdist, ← heq]
      exact abs_sub_units_le q z

end Single

namespace CorrectlyRounded

variable {q r : ℚ} {x y z : Single}

/-- Rounding does not move past a value. -/
theorem le_of_le (h : CorrectlyRounded q y) (hz : z.isFinite = true) (hq : z.value ≤ q) :
    z.value ≤ y.value := by
  have hle := h.le z hz
  rw [abs_of_nonneg (sub_nonneg.2 hq)] at hle
  linarith [(abs_le.1 hle).2]

theorem ge_of_ge (h : CorrectlyRounded q y) (hz : z.isFinite = true) (hq : q ≤ z.value) :
    y.value ≤ z.value := by
  have hle := h.le z hz
  rw [abs_of_nonpos (sub_nonpos.2 hq)] at hle
  linarith [(abs_le.1 hle).1]

/-- No magnitude is between two that a number is rounded to. -/
theorem magnitude_le_succ (hx : CorrectlyRounded q x) (hy : CorrectlyRounded q y) :
    y.magnitude ≤ x.magnitude + 1 := by
  by_contra hlt
  have hlt := not_le.1 hlt
  have hm : x.magnitude + 1 < Single.infiniteMagnitude :=
    hlt.trans (Single.isFinite_iff.1 hy.finite)
  have hm' := Single.lt_of_le_infinite hm.le
  -- the value after `x`, under the same sign, is nearer than `x` or nearer than `y`
  obtain ⟨z, hz⟩ : ∃ z, z = Single.ofParts x.negative (x.magnitude + 1) := ⟨_, rfl⟩
  have hsign : z.negative = decide (q < 0) := by rw [hz, Single.negative_ofParts hm', hx.sign]
  have hmagnitude : z.magnitude = x.magnitude + 1 := by rw [hz, Single.magnitude_ofParts hm']
  have hfinite : z.isFinite = true := Single.isFinite_iff.2 (hmagnitude ▸ hm)
  have hnear : ∀ {w : Single}, CorrectlyRounded q w →
      |(|q| * Single.unitsPerOne) - Single.unitsOf w.magnitude|
        ≤ |(|q| * Single.unitsPerOne) - Single.unitsOf z.magnitude| := by
    intro w hw
    rw [Single.abs_sub_units q hw.sign, Single.abs_sub_units q hsign]
    exact mul_le_mul_of_nonneg_right (hw.le z hfinite) Single.unitsPerOne_cast_pos.le
  have hxz : (Single.unitsOf x.magnitude : ℚ) < Single.unitsOf z.magnitude :=
    Nat.cast_lt.2 (Single.unitsOf_strictMono (by omega))
  have hzy : (Single.unitsOf z.magnitude : ℚ) < Single.unitsOf y.magnitude :=
    Nat.cast_lt.2 (Single.unitsOf_strictMono (by omega))
  linarith [two_mul_le_of_nearer hxz (hnear hx), le_two_mul_of_nearer hzy (hnear hy)]

/-- There is one value that a number is rounded to. -/
theorem unique (hx : CorrectlyRounded q x) (hy : CorrectlyRounded q y) : x = y := by
  refine Single.ext_parts (hx.sign.trans hy.sign.symm) ?_
  by_contra hne
  have heq : |q - x.value| = |q - y.value| := le_antisymm (hx.le y hy.finite) (hy.le x hx.finite)
  have hvalue : x.value ≠ y.value := fun h => hne (Single.abs_value_inj.1 (congrArg _ h))
  -- both are even, and so they are not neighbours
  have hxEven := hx.tie y hy.finite hvalue.symm heq.symm
  have hyEven := hy.tie x hx.finite hvalue heq
  have hle := hx.magnitude_le_succ hy
  have hge := hy.magnitude_le_succ hx
  rw [Single.even_fractionField, Nat.even_iff] at hxEven hyEven
  omega

/-- Rounding keeps the order. -/
theorem mono (hx : CorrectlyRounded q x) (hy : CorrectlyRounded r y) (h : q ≤ r) :
    x.value ≤ y.value := by
  rcases h.lt_or_eq with hlt | rfl
  · exact le_of_nearer hlt (hx.le y hy.finite) (hy.le x hx.finite)
  · rw [hx.unique hy]

end CorrectlyRounded

end Wavefront
