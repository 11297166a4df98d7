import Wavefront.Proofs.Units
import Wavefront.Proofs.QuadLanes

/-!
# Rounding to integral values in four lanes

The four-lane unit cuts to signed words and knows no other way to an integral value, so truncation,
floor, ceiling and rounding are sequences of conversions, comparisons and bit moves there. Each of
them is compared here, lane by lane, with the integral value that its definition names outright.

The argument is exactness: what is in front of the point of a finite value has a magnitude
(`exists_whole`), and so has what is behind it (`exists_rest`). No step of a sequence rounds, and
neither does what it is compared with (`toIntegral_exact`).

* `get_trunc`, `get_round`: the same pattern for every input.
* `get_floor`, `get_ceil`: the same pattern for every number; a NaN is made quiet by the unit.
-/

namespace Wavefront.Single

variable {x y : Single} {m s k : Nat} {sign : Bool}

/-! ## Classes -/

theorem isNaN_of_isFinite (h : x.isFinite = true) : x.isNaN = false := by
  rcases trichotomy x with h' | h' | h' <;> simp_all

theorem isInfinite_of_isFinite (h : x.isFinite = true) : x.isInfinite = false := by
  rcases trichotomy x with h' | h' | h' <;> simp_all

theorem isFinite_of_isInfinite (h : x.isInfinite = true) : x.isFinite = false :=
  Bool.eq_false_iff.2 fun hx => absurd h (ne_true_of_eq_false (isInfinite_of_isFinite hx))

theorem isNaN_of_isInfinite (h : x.isInfinite = true) : x.isNaN = false :=
  Bool.eq_false_iff.2 fun hx => absurd (isInfinite_iff.1 h) (Nat.ne_of_gt (isNaN_iff.1 hx))

theorem isFinite_of_isNaN (h : x.isNaN = true) : x.isFinite = false :=
  Bool.eq_false_iff.2 fun hx => absurd h (ne_true_of_eq_false (isNaN_of_isFinite hx))

theorem isFinite_ofParts (h : m < infiniteMagnitude) : (ofParts sign m).isFinite = true := by
  rw [isFinite_iff, magnitude_ofParts (lt_of_le_infinite (Nat.le_of_lt h))]
  exact h

theorem units_ofParts (h : m < infiniteMagnitude) : (ofParts sign m).units = unitsOf m := by
  rw [units, magnitude_ofParts (lt_of_le_infinite (Nat.le_of_lt h))]

/-! ## Sums and products -/

/-- Numbers are subtracted by adding the negated one. -/
theorem sub_of_number {mode : Denormals} (hx : x.isNaN = false) (hy : y.isNaN = false) :
    sub mode x y = add mode x y.neg := if_neg (by rw [hx, hy]; decide)

theorem sub_of_isNaN {mode : Denormals} (h : x.isNaN = true ∨ y.isNaN = true) :
    sub mode x y = passOn x y := if_pos (Bool.or_eq_true_iff.2 h)

/-- Finite values are added as whole numbers of units. -/
theorem add_keep (hx : x.isFinite = true) (hy : y.isFinite = true) :
    add .keep x y = if x.scaled + y.scaled = 0 then zero (x.negative && y.negative)
      else ofRatio .keep (x.scaled + y.scaled < 0) (x.scaled + y.scaled).natAbs 1 := by
  simp only [add, operand_keep, isNaN_of_isFinite hx, isNaN_of_isFinite hy,
    isInfinite_of_isFinite hx, isInfinite_of_isFinite hy, Bool.or_self, Bool.false_eq_true,
    if_false]
  rfl

/-- The product of finite values counts units of units. -/
theorem mul_keep (hx : x.isFinite = true) (hy : y.isFinite = true) :
    mul .keep x y = ofRatio .keep (x.negative != y.negative) (x.units * y.units) unitsPerOne := by
  rw [mul, operand_keep, operand_keep, isNaN_of_isFinite hx, isNaN_of_isFinite hy,
    isInfinite_of_isFinite hx, isInfinite_of_isFinite hy]
  rfl

theorem natAbs_scaled (x : Single) : x.scaled.natAbs = x.units := by
  rw [scaled]
  split <;> omega

theorem scaled_neg (x : Single) : x.neg.scaled = -x.scaled := by
  rw [scaled, scaled, negative_neg, units, units, magnitude_neg]
  cases x.negative <;> simp

theorem isFinite_neg (x : Single) : x.neg.isFinite = x.isFinite := by
  rw [isFinite, isFinite, magnitude_neg]

/-- Finite values are subtracted as whole numbers of units. -/
theorem sub_keep (hx : x.isFinite = true) (hy : y.isFinite = true) :
    sub .keep x y = if x.scaled - y.scaled = 0 then zero (x.negative && !y.negative)
      else ofRatio .keep (x.scaled - y.scaled < 0) (x.scaled - y.scaled).natAbs 1 := by
  rw [sub_of_number (isNaN_of_isFinite hx) (isNaN_of_isFinite hy),
    add_keep hx ((isFinite_neg y).trans hy), scaled_neg, negative_neg, ← Int.sub_eq_add_neg]

/-- Values of one sign are added by their units. -/
theorem add_same_sign (hx : x.isFinite = true) (hy : y.isFinite = true)
    (h : y.negative = x.negative) (hpos : 0 < x.units + y.units) :
    add .keep x y = ofRatio .keep x.negative (x.units + y.units) 1 := by
  rw [add_keep hx hy, scaled, scaled, h]
  cases x.negative
  · simp only [Bool.false_eq_true, if_false]
    rw [if_neg (by omega), decide_eq_false (by omega),
      show ((x.units : Int) + y.units).natAbs = x.units + y.units by omega]
  · simp only [if_true]
    rw [if_neg (by omega), decide_eq_true (by omega),
      show (-(x.units : Int) + -(y.units : Int)).natAbs = x.units + y.units by omega]

/-- A sum that has a magnitude is not rounded. -/
theorem add_exact (hx : x.isFinite = true) (hy : y.isFinite = true) (hm : m < infiniteMagnitude)
    (h : unitsOf m = (x.scaled + y.scaled).natAbs) :
    (add .keep x y).isFinite = true ∧ (add .keep x y).scaled = x.scaled + y.scaled := by
  rw [add_keep hx hy, ← h]
  split
  case isTrue hzero =>
    rw [hzero]
    exact ⟨isFinite_ofParts (by decide), by cases x.negative && y.negative <;> decide⟩
  case isFalse =>
    rw [ofRatio_unitsOf (Nat.le_of_lt hm)]
    refine ⟨isFinite_ofParts hm, ?_⟩
    rw [scaled, negative_ofParts (lt_of_le_infinite (Nat.le_of_lt hm)), units_ofParts hm, h]
    split
    case isTrue hneg =>
      have := of_decide_eq_true hneg
      omega
    case isFalse hneg =>
      have := of_decide_eq_false (Bool.eq_false_iff.2 hneg)
      omega

/-- A difference that has a magnitude is not rounded. -/
theorem sub_exact (hx : x.isFinite = true) (hy : y.isFinite = true) (hm : m < infiniteMagnitude)
    (h : unitsOf m = (x.scaled - y.scaled).natAbs) :
    (sub .keep x y).isFinite = true ∧ (sub .keep x y).scaled = x.scaled - y.scaled := by
  rw [Int.sub_eq_add_neg, ← scaled_neg] at h ⊢
  rw [sub_of_number (isNaN_of_isFinite hx) (isNaN_of_isFinite hy)]
  exact add_exact hx ((isFinite_neg y).trans hy) hm h

/-- A value is its own difference from zero. -/
theorem sub_zero (hx : x.isFinite = true) : sub .keep x (zero false) = x := by
  have hzero : (zero false).scaled = 0 := by decide
  rw [sub_keep hx (by decide), hzero, Int.sub_zero, show (zero false).negative = false by decide,
    Bool.not_false, Bool.and_true, scaled]
  rcases Nat.eq_zero_or_pos x.units with h | h
  · have hm : x.magnitude = 0 := unitsOf_strictMono.injective (Eq.trans h (by decide))
    rw [h, if_pos (by simp)]
    exact ext_parts (negative_ofParts (by decide)) ((magnitude_ofParts (by decide)).trans hm.symm)
  · cases hs : x.negative
    · simp only [Bool.false_eq_true, if_false]
      rw [if_neg (by omega), decide_eq_false (by omega), Int.natAbs_natCast, ← hs, ofRatio_units hx]
    · simp only [if_true]
      rw [if_neg (by omega), decide_eq_true (by omega), Int.natAbs_neg, Int.natAbs_natCast, ← hs,
        ofRatio_units hx]

/-! ## Before and behind the point -/

theorem unitsPerOne_pos : 0 < unitsPerOne := by decide

/-- A whole number has its point after 149 places. -/
theorem shiftLeft_point (a : Nat) : a <<< 149 = a * unitsPerOne := by
  rw [Nat.shiftLeft_eq, unitsPerOne, Nat.one_shiftLeft]

/-- With more places it has nothing behind its point. -/
theorem shiftLeft_mod_point {e : Nat} (he : 149 ≤ e) (a : Nat) : a <<< e % unitsPerOne = 0 := by
  rw [Nat.shiftLeft_eq, unitsPerOne, Nat.one_shiftLeft]
  exact Nat.mod_eq_zero_of_dvd (Nat.dvd_mul_left_of_dvd (Nat.pow_dvd_pow 2 he) _)

/-- A significand of at most 24 bits has a finite magnitude unless its point is far to the right. -/
theorem exists_finite (hs : s < 2 * normalMagnitude) (hk : k ≤ 253) :
    ∃ m, m < infiniteMagnitude ∧ unitsOf m = s <<< k := by
  obtain ⟨m, hm⟩ := exists_unitsOf hs k
  refine ⟨m, unitsOf_strictMono.lt_iff_lt.1 ?_, hm⟩
  have htop : unitsOf infiniteMagnitude = (2 * normalMagnitude) * 2 ^ 253 := by decide
  rw [hm, htop, Nat.shiftLeft_eq]
  calc s * 2 ^ k < 2 * normalMagnitude * 2 ^ k := Nat.mul_lt_mul_of_pos_right hs (Nat.two_pow_pos k)
    _ ≤ 2 * normalMagnitude * 2 ^ 253 :=
      Nat.mul_le_mul_left _ (Nat.pow_le_pow_right (by decide) hk)

/-- A product with a significand of at most 24 bits is not rounded. -/
theorem mul_significand (hx : x.isFinite = true) (hy : y.isFinite = true)
    (hs : s < 2 * normalMagnitude) (hk : k ≤ 253) (h : s <<< k * unitsPerOne = x.units * y.units) :
    (mul .keep x y).isFinite = true ∧ (mul .keep x y).negative = (x.negative != y.negative) ∧
      (mul .keep x y).units = s <<< k := by
  obtain ⟨m, hmInf, hm⟩ := exists_finite hs hk
  have hmul : mul .keep x y = ofParts (x.negative != y.negative) m := by
    rw [mul_keep hx hy, ← h, ← hm, ofRatio_keep, nearestMagnitude_mul_right unitsPerOne_pos,
      nearestMagnitude_unitsOf (Nat.le_of_lt hmInf)]
  rw [hmul, units_ofParts hmInf]
  exact ⟨isFinite_ofParts hmInf, negative_ofParts (lt_of_le_infinite (Nat.le_of_lt hmInf)), hm⟩

/-- The magnitude of `2^23`, from which on there is nothing behind the point. -/
def integralMagnitude : Nat := 0x4b000000

theorem rest_of_integral (h : integralMagnitude ≤ m) : unitsOf m % unitsPerOne = 0 := by
  obtain ⟨e, f, hf, rfl⟩ := exists_normal (Nat.le_trans (by decide) h)
  have he : 149 ≤ e := by
    rw [normalMagnitude] at hf h
    rw [integralMagnitude] at h
    omega
  rw [unitsOf_normal hf, shiftLeft_mod_point he]

theorem whole_of_not_integral (h : m < integralMagnitude) :
    unitsOf m / unitsPerOne < normalMagnitude := by
  refine Nat.div_lt_of_lt_mul ?_
  have htop : unitsOf integralMagnitude = unitsPerOne * normalMagnitude := by decide
  exact htop ▸ unitsOf_strictMono h

/-- What is before the point of a value has a magnitude, and that is no larger. -/
theorem exists_whole (m : Nat) :
    ∃ w, w ≤ m ∧ unitsOf w = unitsOf m / unitsPerOne * unitsPerOne := by
  have hdiv := Nat.div_add_mod (unitsOf m) unitsPerOne
  rw [Nat.mul_comm] at hdiv
  rcases Nat.lt_or_ge m integralMagnitude with h | h
  · have hw := whole_of_not_integral h
    obtain ⟨w, hw⟩ := exists_unitsOf (Nat.lt_of_lt_of_le hw (by decide)) 149
    rw [shiftLeft_point] at hw
    exact ⟨w, unitsOf_strictMono.le_iff_le.1 (by rw [hw]; exact Nat.div_mul_le_self _ _), hw⟩
  · refine ⟨m, Nat.le_refl m, ?_⟩
    rw [rest_of_integral h, Nat.add_zero] at hdiv
    exact hdiv.symm

/-- What is behind the point of a value has a magnitude. -/
theorem exists_rest (m : Nat) : ∃ r, unitsOf r = unitsOf m % unitsPerOne := by
  rcases Nat.lt_or_ge m normalMagnitude with h | h
  · have hlt : m < unitsPerOne := Nat.lt_trans h (by decide)
    exact ⟨m, by rw [unitsOf_of_lt h, Nat.mod_eq_of_lt hlt]⟩
  · obtain ⟨e, f, hf, rfl⟩ := exists_normal h
    rw [unitsOf_normal hf]
    rcases Nat.le_total 149 e with he | he
    · refine ⟨0, ?_⟩
      rw [shiftLeft_mod_point he]
      rfl
    · -- the point is inside the significand, and cuts off its upper bits
      have hlow : (normalMagnitude + f) % 2 ^ (149 - e) < 2 * normalMagnitude :=
        Nat.lt_of_le_of_lt (Nat.mod_le _ _) (by omega)
      obtain ⟨r, hr⟩ := exists_unitsOf hlow e
      refine ⟨r, hr.trans ?_⟩
      rw [Nat.shiftLeft_eq, Nat.shiftLeft_eq, unitsPerOne, Nat.one_shiftLeft,
        ← Nat.sub_add_cancel he, Nat.pow_add, Nat.mul_mod_mul_right, Nat.add_sub_cancel]

/-! ## Truncation -/

/-- An integral value is exact: it is the integer part of the value, or one more where something
is cut off. -/
theorem toIntegral_exact (settle : Nat → Nat → Nat) (hx : x.isFinite = true)
    (h : settle (x.units / unitsPerOne) (x.units % unitsPerOne) = x.units / unitsPerOne ∨
      x.units % unitsPerOne ≠ 0 ∧
        settle (x.units / unitsPerOne) (x.units % unitsPerOne) = x.units / unitsPerOne + 1) :
    (x.toIntegral settle).isFinite = true ∧ (x.toIntegral settle).negative = x.negative ∧
      (x.toIntegral settle).units
        = settle (x.units / unitsPerOne) (x.units % unitsPerOne) * unitsPerOne := by
  have hm : ∃ m, m < infiniteMagnitude ∧
      unitsOf m = settle (x.units / unitsPerOne) (x.units % unitsPerOne) * unitsPerOne := by
    rcases h with h | ⟨hrest, h⟩
    · obtain ⟨w, hle, hw⟩ := exists_whole x.magnitude
      exact ⟨w, Nat.lt_of_le_of_lt hle (isFinite_iff.1 hx), by rw [h]; exact hw⟩
    · -- where something is cut off, the integer part is short, and so is one more
      have hsmall := whole_of_not_integral (Nat.lt_of_not_le (mt rest_of_integral hrest))
      obtain ⟨w, hlt, hw⟩ := exists_finite (s := x.units / unitsPerOne + 1) (k := 149)
        (Nat.lt_of_le_of_lt hsmall (by decide)) (by decide)
      exact ⟨w, hlt, by rw [h, hw, shiftLeft_point]⟩
  obtain ⟨m, hlt, hm⟩ := hm
  have hy : x.toIntegral settle = ofParts x.negative m := by
    rw [toIntegral, if_pos hx]
    exact (congrArg (fun u => ofRatio .keep x.negative u 1) hm.symm).trans
      (ofRatio_unitsOf (Nat.le_of_lt hlt))
  rw [hy, units_ofParts hlt]
  exact ⟨isFinite_ofParts hlt, negative_ofParts (lt_of_le_infinite (Nat.le_of_lt hlt)), hm⟩

/-- A finite value cut at its point is exact. -/
theorem trunc_exact (hx : x.isFinite = true) :
    x.trunc.isFinite = true ∧ x.trunc.negative = x.negative ∧
      x.trunc.units = x.units / unitsPerOne * unitsPerOne :=
  toIntegral_exact (fun whole _ => whole) hx (.inl rfl)

theorem toIntegral_of_not_isFinite (settle : Nat → Nat → Nat) (h : x.isFinite = false) :
    x.toIntegral settle = x := by
  rw [toIntegral, h]
  rfl

/-- From `2^23` on a value is its own truncation. -/
theorem trunc_of_integral (h : integralMagnitude ≤ x.magnitude) : x.trunc = x := by
  cases hx : x.isFinite
  · exact toIntegral_of_not_isFinite _ hx
  · have hdiv := Nat.div_add_mod x.units unitsPerOne
    rw [Nat.mul_comm, show x.units % unitsPerOne = 0 from rest_of_integral h, Nat.add_zero] at hdiv
    rw [trunc, toIntegral, if_pos hx]
    exact (congrArg (fun u => ofRatio .keep x.negative u 1) hdiv).trans (ofRatio_units hx)

theorem natAbs_wholePart (x : Single) : x.wholePart.natAbs = x.units / unitsPerOne := by
  rw [wholePart]
  generalize x.units / unitsPerOne = whole
  split <;> omega

theorem wholePart_neg_iff (x : Single) :
    x.wholePart < 0 ↔ x.negative = true ∧ 0 < x.units / unitsPerOne := by
  rw [wholePart]
  generalize x.units / unitsPerOne = whole
  cases x.negative
  · simp only [Bool.false_eq_true, if_false, false_and, iff_false]
    omega
  · simp only [if_true, true_and]
    omega

/-- Below `2^23` a value fits a signed word. -/
theorem toInt_cut (h : x.magnitude < integralMagnitude) :
    (Quad.Float.cut x).toInt = x.wholePart := by
  have hw : x.wholePart.natAbs < 0x800000 := natAbs_wholePart x ▸ whole_of_not_integral h
  have hfinite : x.isFinite = true := isFinite_iff.2 (Nat.lt_trans h (by decide))
  have hlow : -0x80000000 ≤ x.wholePart := by omega
  have hhigh : x.wholePart < 0x80000000 := by omega
  rw [Quad.Float.cut, hfinite, decide_eq_true hlow, decide_eq_true hhigh]
  exact BitVec.toInt_ofInt_eq_self (by decide) hlow hhigh

theorem lt_abs_integral (x : Single) :
    lt .keep x.abs ⟨0x4b000000⟩ = decide (x.magnitude < integralMagnitude) := by
  cases h : x.isNaN
  · refine Bool.eq_iff_iff.2 ((lt_keep_iff (by rwa [isNaN_abs]) (by decide)).trans ?_)
    rw [decide_eq_true_iff, position, negative_abs, magnitude_abs,
      show position ⟨0x4b000000⟩ = integralMagnitude by decide]
    exact Int.ofNat_lt
  · have hm : integralMagnitude ≤ x.magnitude :=
      Nat.le_trans (by decide) (Nat.le_of_lt (isNaN_iff.1 h))
    rw [lt, operand_keep, isNaN_abs, h, decide_eq_false (Nat.not_lt.2 hm)]
    rfl

/-- The way through signed words loses nothing but the sign of zero, which is put back. -/
theorem trunc_eq (x : Single) :
    (if !lt .keep x.abs ⟨0x4b000000⟩ then x.bits else (ofInt (Quad.Float.cut x).toInt).bits) |||
      (x.bits &&& 0x80000000) = x.trunc.bits := by
  rw [lt_abs_integral]
  rcases Nat.lt_or_ge x.magnitude integralMagnitude with h | h
  · have hfinite : x.isFinite = true := isFinite_iff.2 (Nat.lt_trans h (by decide))
    have hsign : (decide (x.wholePart < 0) || x.negative) = x.negative := by
      rw [Bool.or_eq_right_iff_imp, decide_eq_true_iff, wholePart_neg_iff]
      exact And.left
    rw [decide_eq_true h, Bool.not_true, if_neg (by decide), or_sign, toInt_cut h, ofInt,
      negative_ofRatio, magnitude_ofRatio, hsign, natAbs_wholePart, trunc, toIntegral,
      if_pos hfinite, ofRatio_keep]
  · rw [decide_eq_false (Nat.not_lt.2 h), Bool.not_false, if_pos rfl, or_sign, Bool.or_self,
      ofParts_parts, trunc_of_integral h]

/-! ## One step further out -/

/-- The place of the truncation, beside the value itself, tells whether anything was cut off. -/
theorem lt_trunc_iff (hx : x.isFinite = true) :
    lt .keep x x.trunc = (x.negative && x.units % unitsPerOne != 0) := by
  obtain ⟨hfinite, hsign, hunits⟩ := trunc_exact hx
  have hdiv := Nat.div_add_mod' x.units unitsPerOne
  have hcut : x.trunc.magnitude < x.magnitude ↔ x.units % unitsPerOne ≠ 0 := by
    rw [← unitsOf_strictMono.lt_iff_lt]
    show x.trunc.units < x.units ↔ _
    omega
  have hle : x.trunc.magnitude ≤ x.magnitude := by
    rw [← unitsOf_strictMono.le_iff_le]
    show x.trunc.units ≤ x.units
    omega
  refine Bool.eq_iff_iff.2
    ((lt_keep_iff (isNaN_of_isFinite hx) (isNaN_of_isFinite hfinite)).trans ?_)
  rw [position, position, hsign, Bool.and_eq_true, bne_iff_ne, ← hcut]
  cases x.negative
  · simp only [Bool.false_eq_true, if_false, false_and, iff_false]
    omega
  · simp only [if_true, true_and]
    omega

/-- The truncation and a step of one away from zero add up exactly. -/
theorem add_trunc_one (hx : x.isFinite = true) (hs : y.negative = x.negative)
    (hy : y.magnitude = one.magnitude) :
    add .keep x.trunc y
      = ofRatio .keep x.negative ((x.units / unitsPerOne + 1) * unitsPerOne) 1 := by
  obtain ⟨htFinite, htNeg, htUnits⟩ := trunc_exact hx
  have hyUnits : y.units = unitsPerOne := by
    rw [units, hy]
    decide
  have hyFinite : y.isFinite = true := by
    rw [isFinite_iff, hy]
    decide
  have hpos := unitsPerOne_pos
  rw [add_same_sign htFinite hyFinite (hs.trans htNeg.symm) (by omega), htNeg, htUnits, hyUnits,
    Nat.succ_mul]

/-! ## Floor and ceiling -/

theorem trunc_of_whole (hx : x.isFinite = true) :
    x.trunc = ofRatio .keep x.negative (x.units / unitsPerOne * unitsPerOne) 1 := if_pos hx

/-- One less than the truncation where that is above the value is the floor of a number. -/
theorem floor_eq (x : Single) :
    sub .keep x.trunc ⟨fill (lt .keep x x.trunc) &&& one.bits⟩
      = if x.isNaN then x.quiet else x.floor := by
  rcases trichotomy x with ⟨hx, -, hn⟩ | ⟨hx, hi, hn⟩ | ⟨hx, -, hn⟩
  · rw [lt_trunc_iff hx, hn, if_neg Bool.false_ne_true, floor, toIntegral, if_pos hx]
    cases h : x.negative && x.units % unitsPerOne != 0
    · rw [Quad.fill_and, if_neg Bool.false_ne_true, if_neg Bool.false_ne_true]
      exact (sub_zero (trunc_exact hx).1).trans (trunc_of_whole hx)
    · rw [Quad.fill_and, if_pos rfl, if_pos rfl]
      have hneg : x.negative = true := (Bool.and_eq_true_iff.1 h).1
      rw [sub_of_number (isNaN_of_isFinite (trunc_exact hx).1) (by decide)]
      exact add_trunc_one hx (by rw [hneg]; decide) (by decide)
  · have hself : lt .keep x x = false := by
      rw [lt, operand_keep, decide_eq_false (Int.lt_irrefl _), Bool.and_false]
    rw [trunc, floor, toIntegral_of_not_isFinite _ hx, toIntegral_of_not_isFinite _ hx, hself, hn,
      Quad.fill_and, if_neg Bool.false_ne_true, if_neg Bool.false_ne_true]
    rw [sub_of_number hn (by decide), add, operand_keep, operand_keep, hn, hi]
    rfl
  · rw [trunc, toIntegral_of_not_isFinite _ hx, if_pos hn, sub_of_isNaN (.inl hn)]
    exact if_pos hn

/-- The floor mirrored is the ceiling. -/
theorem neg_floor_neg (x : Single) : x.neg.floor.neg = x.ceil := by
  rw [floor, ceil, toIntegral, toIntegral, isFinite_neg, negative_neg, units, magnitude_neg,
    ← units]
  split
  · rw [neg_eq, negative_ofRatio, magnitude_ofRatio, Bool.not_not, ofRatio_keep]
  · rw [neg_eq, negative_neg, magnitude_neg, Bool.not_not, ofParts_parts]

/-! ## Rounding -/

/-- What is taken from a value of either sign leaves the rest of it. -/
theorem natAbs_sub_part {part rest whole : Nat} (sign : Bool) (h : part + rest = whole) :
    ((if sign then -(whole : Int) else whole) + -(if sign then -(part : Int) else part)).natAbs
      = rest := by
  cases sign
  · simp only [Bool.false_eq_true, if_false]
    omega
  · simp only [if_true]
    omega

/-- What the truncation leaves is the rest. -/
theorem natAbs_scaled_sub_trunc (hx : x.isFinite = true) :
    (x.scaled - x.trunc.scaled).natAbs = x.units % unitsPerOne := by
  obtain ⟨-, hsign, hunits⟩ := trunc_exact hx
  have hdiv := Nat.div_add_mod' x.units unitsPerOne
  rw [Int.sub_eq_add_neg, scaled, scaled, hsign, hunits]
  exact natAbs_sub_part _ hdiv

/-- It is not rounded. -/
theorem sub_trunc_exact (hx : x.isFinite = true) :
    (sub .keep x x.trunc).isFinite = true ∧
      (sub .keep x x.trunc).scaled = x.scaled - x.trunc.scaled := by
  obtain ⟨r, hr⟩ := exists_rest x.magnitude
  have hrInf : r < infiniteMagnitude := by
    refine Nat.lt_of_le_of_lt (unitsOf_strictMono.le_iff_le.1 ?_) (isFinite_iff.1 hx)
    rw [hr]
    exact Nat.mod_le _ _
  exact sub_exact hx (trunc_exact hx).1 hrInf (by rw [natAbs_scaled_sub_trunc hx, hr, units])

theorem sub_trunc (hx : x.isFinite = true) :
    (sub .keep x x.trunc).isFinite = true ∧
      (sub .keep x x.trunc).units = x.units % unitsPerOne := by
  obtain ⟨hfinite, hscaled⟩ := sub_trunc_exact hx
  exact ⟨hfinite, by rw [← natAbs_scaled, hscaled, natAbs_scaled_sub_trunc hx]⟩

/-- At least half is missing when what is left is no less than one half. -/
theorem half_le_sub_trunc (hx : x.isFinite = true) :
    le .keep half (sub .keep x x.trunc).abs
      = decide (unitsPerOne ≤ 2 * (x.units % unitsPerOne)) := by
  obtain ⟨hfinite, hr⟩ := sub_trunc hx
  have hhalf : 2 * unitsOf half.magnitude = unitsPerOne := by decide
  refine Bool.eq_iff_iff.2 (Iff.trans (le_keep_iff (by decide) ?_) ?_)
  · rw [isNaN_abs, isNaN_of_isFinite hfinite]
  rw [units] at hr
  rw [decide_eq_true_iff, position, position, negative_abs, magnitude_abs, ← hr, ← hhalf,
    show half.negative = false by decide, if_neg Bool.false_ne_true, if_neg Bool.false_ne_true,
    Int.ofNat_le, ← unitsOf_strictMono.le_iff_le]
  omega

theorem lt_zero_iff (hx : x.isNaN = false) :
    lt .keep x (zero false) = true ↔ x.negative = true ∧ 0 < x.magnitude := by
  refine (lt_keep_iff hx (by decide)).trans ?_
  rw [position, show (zero false).position = 0 by decide]
  cases x.negative
  · simp only [Bool.false_eq_true, if_false, false_and, iff_false]
    omega
  · simp only [if_true, true_and]
    omega

/-- What is not finite has no difference from itself. -/
theorem sub_self_of_not_isFinite (hx : x.isFinite = false) : (sub .keep x x).isNaN = true := by
  rcases trichotomy x with ⟨h, -, -⟩ | ⟨-, hi, hn⟩ | ⟨-, -, hn⟩
  · exact absurd h (ne_true_of_eq_false hx)
  · have hnan : sub .keep x x = nan := by
      rw [sub_of_number hn hn, add, operand_keep, operand_keep, isNaN_neg, hn, hi, isInfinite,
        magnitude_neg, ← isInfinite, hi, negative_neg]
      cases x.negative <;> rfl
    rw [hnan]
    decide
  · exact isNaN_sub _ _ (.inl hn)

/-- One step further out than the truncation, where at least half is missing, is rounding. -/
theorem round_eq (x : Single) :
    (if le .keep half (sub .keep x x.trunc).abs then
      add .keep x.trunc ⟨if lt .keep x (zero false) then one.neg.bits else one.bits⟩
    else x.trunc) = x.round := by
  cases hx : x.isFinite
  case true =>
    rw [half_le_sub_trunc hx, round, toIntegral, if_pos hx]
    by_cases hfar : unitsPerOne ≤ 2 * (x.units % unitsPerOne)
    · have hbelow : lt .keep x (zero false) = x.negative := by
        refine Bool.eq_iff_iff.2 ((lt_zero_iff (isNaN_of_isFinite hx)).trans
          (and_iff_left (Nat.pos_of_ne_zero ?_)))
        intro hm
        rw [units, hm] at hfar
        exact absurd hfar (by decide)
      rw [decide_eq_true hfar, if_pos rfl, if_pos hfar, hbelow]
      exact add_trunc_one hx (by cases x.negative <;> decide) (by cases x.negative <;> decide)
    · rw [decide_eq_false hfar, if_neg Bool.false_ne_true, if_neg hfar]
      exact trunc_of_whole hx
  case false =>
    rw [round, trunc, toIntegral_of_not_isFinite _ hx, toIntegral_of_not_isFinite _ hx,
      le_of_isNaN _ _ (.inr ((isNaN_abs _).trans (sub_self_of_not_isFinite hx))),
      if_neg Bool.false_ne_true]

end Wavefront.Single

namespace Wavefront.Quad.Float

variable (a : Quad) (i : Fin 4)

open Single (trunc_eq floor_eq neg_quiet_neg neg_floor_neg round_eq isNaN_neg)

@[simp] theorem get_trunc : (trunc a).get i = (Single.trunc ⟨a.get i⟩).bits := by
  rw [trunc, get_or, QuadMask.get_blend, get_and, Quad.get_splat, notLess, lane_compare, get_abs,
    get_splat, get_ofSigned, get_toSignedCut]
  exact trunc_eq ⟨a.get i⟩

/-- The floor of a number is the floor; a NaN is what the subtraction makes of it. -/
@[simp] theorem get_floor :
    (floor a).get i
      = (if Single.isNaN ⟨a.get i⟩ then Single.quiet ⟨a.get i⟩
          else Single.floor ⟨a.get i⟩).bits := by
  rw [floor, sub, get_zip, get_and, QuadMask.get_words, lt, lane_compare, get_splat, get_trunc]
  exact congrArg Single.bits (floor_eq ⟨a.get i⟩)

/-- The ceiling of a number is the ceiling; a NaN is mirrored twice. -/
@[simp] theorem get_ceil :
    (ceil a).get i
      = (if Single.isNaN ⟨a.get i⟩ then Single.quiet ⟨a.get i⟩
          else Single.ceil ⟨a.get i⟩).bits := by
  rw [ceil, get_neg, get_floor, get_neg, isNaN_neg]
  split
  · exact congrArg Single.bits (neg_quiet_neg ⟨a.get i⟩)
  · exact congrArg Single.bits (neg_floor_neg ⟨a.get i⟩)

@[simp] theorem get_round : (round a).get i = (Single.round ⟨a.get i⟩).bits := by
  rw [round, QuadMask.get_blend, ge, lane_compare, get_splat, get_abs, sub, get_zip, add, get_zip,
    QuadMask.get_blend, lt, lane_compare, get_splat, get_splat, get_splat, get_trunc, ← round_eq,
    apply_ite Single.bits]

end Wavefront.Quad.Float
