import Wavefront.Proofs.Integral

/-!
# Conversions in four lanes

The four-lane unit converts signed words only and answers `0x80000000` for what does not fit. The
conversions that clamp, and those of unsigned words, are put together around that; here they are
compared, lane by lane, with the value that they stand for.

* `get_toSigned`, `get_toUnsigned`: cut toward zero, clamped to the range, 0 for NaN. The difference
  from `2^31` that the unsigned one takes is exact.
* `get_ofUnsigned`: the nearest value of the unsigned word. Both halves of the word and the scaling
  of the upper one are exact, so only their sum is rounded.
-/

namespace Wavefront.Single

variable {x y : Single} {k m : Nat}

/-! ## Comparing with a whole number -/

theorem wholePart_of_nonneg (h : x.negative = false) :
    x.wholePart = (x.units / unitsPerOne : Nat) := by
  rw [wholePart, h]
  rfl

theorem wholePart_eq_tdiv (x : Single) : x.wholePart = x.scaled.tdiv unitsPerOne := by
  rw [wholePart, scaled]
  cases x.negative
  · exact (Int.ofNat_tdiv _ _).symm
  · exact ((Int.neg_tdiv _ _).trans (congrArg _ (Int.ofNat_tdiv _ _).symm)).symm

/-- A finite value reaches a positive whole number when its whole part does. -/
theorem le_iff_wholePart (hn : y.isNaN = false) (hs : y.negative = false) (hk : 0 < k)
    (hy : unitsOf y.magnitude = k * unitsPerOne) (hx : x.isFinite = true) :
    le .keep y x = true ↔ (k : Int) ≤ x.wholePart := by
  refine (le_keep_iff hn (isNaN_of_isFinite hx)).trans ?_
  rw [position, position, wholePart, hs, if_neg Bool.false_ne_true]
  have hle : y.magnitude ≤ x.magnitude ↔ k ≤ x.units / unitsPerOne := by
    rw [← unitsOf_strictMono.le_iff_le, hy, Nat.le_div_iff_mul_le unitsPerOne_pos]
    rfl
  have hpos : 0 < y.magnitude := by
    refine Nat.pos_of_ne_zero fun hzero => ?_
    rw [hzero] at hy
    exact absurd (Nat.mul_pos hk unitsPerOne_pos) (by rw [← hy]; decide)
  generalize x.units / unitsPerOne = whole at hle
  clear hy
  cases x.negative
  · simp only [Bool.false_eq_true, if_false]
    omega
  · simp only [if_true]
    omega

/-- The positive infinity reaches every number, and the negative one no positive number. -/
theorem le_of_isInfinite (hn : y.isNaN = false) (hs : y.negative = false) (hy : 0 < y.magnitude)
    (hx : x.isInfinite = true) : le .keep y x = !x.negative := by
  have hxn := isNaN_of_isInfinite hx
  have hm := isInfinite_iff.1 hx
  have hle : y.magnitude ≤ infiniteMagnitude := by
    rw [← Nat.not_lt, ← isNaN_iff, hn]
    exact Bool.false_ne_true
  refine Bool.eq_iff_iff.2 ((le_keep_iff hn hxn).trans ?_)
  rw [position, position, hs, hm, if_neg Bool.false_ne_true]
  cases x.negative
  · simp only [Bool.false_eq_true, if_false, Bool.not_false, iff_true]
    omega
  · simp only [if_true, Bool.not_true, Bool.false_eq_true, iff_false]
    omega

/-! ## To signed words -/

theorem cut_of_not_isFinite (hx : x.isFinite = false) : Quad.Float.cut x = 0x80000000 := by
  rw [Quad.Float.cut, hx]
  rfl

theorem cut_of_isFinite (hx : x.isFinite = true) : Quad.Float.cut x =
    if -0x80000000 ≤ x.wholePart ∧ x.wholePart < 0x80000000 then BitVec.ofInt 32 x.wholePart
    else 0x80000000 := by
  simp only [Quad.Float.cut, hx, Bool.true_and, Bool.and_eq_true, decide_eq_true_eq]

theorem clampedWhole_of_isFinite (low high : Int) (hx : x.isFinite = true) :
    x.clampedWhole low high = max low (min high x.wholePart) := by
  rw [clampedWhole, isNaN_of_isFinite hx, isInfinite_of_isFinite hx]
  rfl

theorem clampedWhole_of_isInfinite (low high : Int) (hx : x.isInfinite = true) :
    x.clampedWhole low high = if x.negative then low else high := by
  rw [clampedWhole, isNaN_of_isInfinite hx, hx]
  rfl

theorem clampedWhole_of_isNaN (low high : Int) (hx : x.isNaN = true) :
    x.clampedWhole low high = 0 := if_pos hx

/-- What does not fit below is answered as the least word already. -/
theorem toSigned_eq (x : Single) :
    (if !x.isNaN then if le .keep Quad.Float.twoTo31 x then 0x7fffffff else Quad.Float.cut x else 0)
      = x.toSigned := by
  rcases trichotomy x with ⟨hx, -, hn⟩ | ⟨hx, hi, hn⟩ | ⟨-, -, hn⟩
  · have hle := le_iff_wholePart (y := Quad.Float.twoTo31) (k := 0x80000000) (by decide) (by decide)
      (by decide) (by decide) hx
    rw [hn, Bool.not_false, if_pos rfl, cut_of_isFinite hx, toSigned,
      clampedWhole_of_isFinite _ _ hx]
    by_cases hbig : 0x80000000 ≤ x.wholePart
    · rw [if_pos (hle.2 hbig),
        show max (-0x80000000) (min 0x7fffffff x.wholePart) = 0x7fffffff by omega]
      rfl
    · rw [if_neg (mt hle.1 hbig)]
      by_cases hsmall : -0x80000000 ≤ x.wholePart
      · rw [if_pos ⟨hsmall, by omega⟩]
        congr 1
        omega
      · rw [if_neg (by omega),
          show max (-0x80000000) (min 0x7fffffff x.wholePart) = -0x80000000 by omega]
        rfl
  · rw [hn, Bool.not_false, if_pos rfl, le_of_isInfinite (by decide) (by decide) (by decide) hi,
      cut_of_not_isFinite hx, toSigned, clampedWhole_of_isInfinite _ _ hi]
    cases x.negative <;> rfl
  · rw [hn, toSigned, clampedWhole, hn]
    rfl

/-! ## To unsigned words -/

theorem zero_lt_iff (hx : x.isNaN = false) :
    lt .keep (zero false) x = true ↔ x.negative = false ∧ 0 < x.magnitude := by
  refine (lt_keep_iff (by decide) hx).trans ?_
  rw [position, position, show (zero false).magnitude = 0 by decide]
  cases x.negative
  · simp
  · simp

/-- Between `2^31` and `2^32` there is one binade, so the difference from its first value is its
fraction, and exact. -/
theorem sub_twoTo31 (hs : x.negative = false) (hlow : 0x4f000000 ≤ x.magnitude)
    (hhigh : x.magnitude < 0x4f800000) :
    (sub .keep x Quad.Float.twoTo31).isFinite = true ∧
      (sub .keep x Quad.Float.twoTo31).scaled = (x.units : Int) - 0x80000000 * unitsPerOne := by
  have hx : x.isFinite = true := isFinite_iff.2 (Nat.lt_trans hhigh (by decide))
  obtain ⟨e, f, hf, hm⟩ := exists_normal (m := x.magnitude) (Nat.le_trans (by decide) hlow)
  obtain rfl : e = 157 := by
    rw [normalMagnitude] at hf hm
    omega
  have hunits : x.units = f <<< 157 + 0x80000000 * unitsPerOne := by
    rw [units, hm, unitsOf_normal hf, Nat.shiftLeft_eq, Nat.shiftLeft_eq, Nat.add_mul, Nat.add_comm,
      show normalMagnitude * 2 ^ 157 = 0x80000000 * unitsPerOne by decide]
  obtain ⟨m, hmInf, hm⟩ := exists_finite (s := f) (k := 157) (by omega) (by decide)
  have hscaled : x.scaled = x.units := by rw [scaled, hs, if_neg Bool.false_ne_true]
  have hother : Quad.Float.twoTo31.scaled = (0x80000000 * unitsPerOne : Nat) := by decide
  have hdifference : x.scaled - Quad.Float.twoTo31.scaled = (unitsOf m : Int) := by
    rw [hscaled, hother, hunits, hm]
    omega
  obtain ⟨hfinite, hsub⟩ := sub_exact hx (y := Quad.Float.twoTo31) (by decide) hmInf
    (by rw [hdifference, Int.natAbs_natCast])
  refine ⟨hfinite, ?_⟩
  rw [hsub, hscaled, hother, Int.natCast_mul]
  rfl

/-- Half the range lower with the top bit flipped is the same word. -/
theorem ofInt_sub_flip {v : Int} (hlow : 0x80000000 ≤ v) (hhigh : v < 0x100000000) :
    BitVec.ofInt 32 (v - 0x80000000) ^^^ 0x80000000 = BitVec.ofInt 32 v := by
  apply BitVec.eq_of_toInt_eq
  rw [Quad.Integer.toInt_flip, BitVec.toNat_ofInt, BitVec.toInt_ofInt, Int.bmod_def]
  omega

/-- In the upper half of the range, taking 2 ^ 31 away first is exact. -/
theorem cut_sub_twoTo31 (hs : x.negative = false) (hlow : 0x4f000000 ≤ x.magnitude)
    (htop : x.magnitude < 0x4f800000) (hhigh : 0x80000000 ≤ x.wholePart)
    (hbelow : x.wholePart < 0x100000000) :
    Quad.Float.cut (sub .keep x Quad.Float.twoTo31)
      = BitVec.ofInt 32 (x.wholePart - 0x80000000) := by
  obtain ⟨hfinite, hscaled⟩ := sub_twoTo31 hs hlow htop
  have hwhole : (sub .keep x Quad.Float.twoTo31).wholePart = x.wholePart - 0x80000000 := by
    rw [wholePart_of_nonneg hs] at hhigh ⊢
    have hle : 0x80000000 * unitsPerOne ≤ x.units :=
      (Nat.le_div_iff_mul_le unitsPerOne_pos).1 (Int.ofNat_le.1 hhigh)
    rw [wholePart_eq_tdiv, hscaled, Int.tdiv_eq_ediv_of_nonneg (by omega),
      Int.sub_mul_ediv_right _ _ (Int.natCast_ne_zero.2 (Nat.ne_of_gt unitsPerOne_pos))]
    rfl
  rw [cut_of_isFinite hfinite, hwhole, if_pos ⟨by omega, by omega⟩]

/-- For a number that is not negative the three ranges are put together right. -/
theorem toUnsigned_of_nonneg (hn : x.isNaN = false) (hs : x.negative = false) :
    (if le .keep Quad.Float.twoTo31 x then
      Quad.Float.cut (sub .keep x Quad.Float.twoTo31) ^^^ 0x80000000
    else Quad.Float.cut x) ||| fill (le .keep Quad.Float.twoTo32 x) = x.toUnsigned := by
  rcases trichotomy x with ⟨hx, -, -⟩ | ⟨hx, hi, -⟩ | ⟨-, -, h⟩
  · have h31 := le_iff_wholePart (y := Quad.Float.twoTo31) (k := 0x80000000) (by decide)
      (by decide) (by decide) (by decide) hx
    have h32 := le_iff_wholePart (y := Quad.Float.twoTo32) (k := 0x100000000) (by decide)
      (by decide) (by decide) (by decide) hx
    have hnonneg : 0 ≤ x.wholePart := by
      rw [wholePart_of_nonneg hs]
      exact Int.natCast_nonneg _
    rw [toUnsigned, clampedWhole_of_isFinite _ _ hx]
    by_cases hbeyond : 0x100000000 ≤ x.wholePart
    · rw [h32.2 hbeyond, show max 0 (min 0xffffffff x.wholePart) = 0xffffffff by omega,
        show fill true = BitVec.allOnes 32 from rfl, BitVec.or_allOnes]
      rfl
    · rw [Bool.eq_false_iff.2 (mt h32.1 hbeyond), show fill false = 0#32 from rfl, BitVec.or_zero,
        show max 0 (min 0xffffffff x.wholePart) = x.wholePart by omega]
      by_cases hhigh : 0x80000000 ≤ x.wholePart
      · have hpos : x.position = x.magnitude := by rw [position, hs, if_neg Bool.false_ne_true]
        have hlow := (le_keep_iff (by decide) hn).1 (h31.2 hhigh)
        have htop := mt (le_keep_iff (y := x) (by decide) hn).2 (mt h32.1 hbeyond)
        rw [hpos, show Quad.Float.twoTo31.position = 0x4f000000 by decide] at hlow
        rw [hpos, show Quad.Float.twoTo32.position = 0x4f800000 by decide] at htop
        rw [if_pos (h31.2 hhigh), cut_sub_twoTo31 hs (by omega) (by omega) hhigh (by omega),
          ofInt_sub_flip hhigh (by omega)]
      · rw [if_neg (mt h31.1 hhigh), cut_of_isFinite hx, if_pos ⟨by omega, by omega⟩]
  · rw [le_of_isInfinite (y := Quad.Float.twoTo32) (by decide) (by decide) (by decide) hi, hs,
      Bool.not_false, show fill true = BitVec.allOnes 32 from rfl, BitVec.or_allOnes, toUnsigned,
      clampedWhole_of_isInfinite _ _ hi, hs]
    rfl
  · exact absurd h (by rw [hn]; exact Bool.false_ne_true)

/-- The maximum with zero is a number that is not negative. -/
theorem max_zero_nonneg (x : Single) :
    (if lt .keep (zero false) x then x else zero false).isNaN = false ∧
      (if lt .keep (zero false) x then x else zero false).negative = false := by
  split
  case isTrue h =>
    have hn : x.isNaN = false := by
      cases hx : x.isNaN
      · rfl
      · rw [lt, operand_keep, operand_keep, hx, Bool.not_true, Bool.and_false, Bool.false_and] at h
        exact absurd h Bool.false_ne_true
    exact ⟨hn, ((zero_lt_iff hn).1 h).1⟩
  case isFalse => decide

/-- What the maximum with zero removes is converted to 0 in any case. -/
theorem toUnsigned_max_zero (x : Single) :
    (if lt .keep (zero false) x then x else zero false).toUnsigned = x.toUnsigned := by
  split
  case isTrue => rfl
  case isFalse h =>
    have hzero : (zero false).toUnsigned = 0 := by decide
    rw [hzero, toUnsigned]
    rcases trichotomy x with ⟨hx, -, hn⟩ | ⟨-, hi, hn⟩ | ⟨-, -, hn⟩
    · have hle : x.wholePart ≤ 0 := by
        rw [zero_lt_iff hn] at h
        rw [wholePart]
        cases hs : x.negative
        · have hm : x.magnitude = 0 := Nat.eq_zero_of_not_pos fun hpos => h ⟨hs, hpos⟩
          rw [units, hm]
          decide
        · exact Int.neg_nonpos_of_nonneg (Int.natCast_nonneg _)
      rw [clampedWhole_of_isFinite _ _ hx, show max 0 (min 0xffffffff x.wholePart) = 0 by omega]
      rfl
    · have hneg : x.negative = true := by
        rw [zero_lt_iff hn, isInfinite_iff.1 hi] at h
        cases hs : x.negative
        · exact absurd ⟨hs, by decide⟩ h
        · rfl
      rw [clampedWhole_of_isInfinite _ _ hi, hneg]
      rfl
    · rw [clampedWhole, hn]
      rfl

/-! ## From unsigned words -/

/-- A significand of at most 24 bits, as a whole number, is converted exactly. -/
theorem ofInt_exact {a : Nat} (ha : a < 2 * normalMagnitude) :
    (ofInt a).isFinite = true ∧ (ofInt a).negative = false ∧ (ofInt a).units = a * unitsPerOne := by
  obtain ⟨m, hmInf, hm⟩ := exists_finite ha (k := 149) (by decide)
  rw [shiftLeft_point] at hm
  have h : ofInt a = ofParts false m := by
    rw [ofInt, Int.natAbs_natCast, decide_eq_false (Int.not_lt.2 (Int.natCast_nonneg a))]
    exact (congrArg (fun u => ofRatio .keep false u 1) hm.symm).trans
      (ofRatio_unitsOf (Nat.le_of_lt hmInf))
  rw [h, units_ofParts hmInf]
  exact ⟨isFinite_ofParts hmInf, negative_ofParts (lt_of_le_infinite (Nat.le_of_lt hmInf)), hm⟩

/-- Moving a word of 16 bits up by 16 places is exact. -/
theorem mul_exact {a : Nat} (ha : a < 0x10000) :
    (mul .keep (ofInt a) ⟨0x47800000⟩).isFinite = true ∧
      (mul .keep (ofInt a) ⟨0x47800000⟩).negative = false ∧
      (mul .keep (ofInt a) ⟨0x47800000⟩).units = a * 0x10000 * unitsPerOne := by
  have hsmall : a < 2 * normalMagnitude := Nat.lt_trans ha (by decide)
  obtain ⟨hfinite, hneg, hunits⟩ := ofInt_exact hsmall
  have hshift : a <<< 165 = a * 0x10000 * unitsPerOne := by
    rw [Nat.shiftLeft_eq, Nat.mul_assoc]
    congr 1
  have hscale : units ⟨0x47800000⟩ = 0x10000 * unitsPerOne := by decide
  obtain ⟨hf, hs, hu⟩ := mul_significand (k := 165) (y := ⟨0x47800000⟩) hfinite (by decide) hsmall
    (by decide) (by rw [hshift, hunits, hscale, Nat.mul_mul_mul_comm, ← Nat.mul_assoc])
  exact ⟨hf, by rw [hs, hneg]; decide, hu.trans hshift⟩

/-- Two halves of a word, the upper one scaled, are summed with one rounding. -/
theorem add_halves (w : Word) :
    add .keep (mul .keep (ofInt (w.toNat / 0x10000 : Nat)) ⟨0x47800000⟩)
      (ofInt (w.toNat % 0x10000 : Nat)) = ofInt w.toNat := by
  have hw := w.isLt
  obtain ⟨hx, hxs, hxu⟩ := mul_exact (a := w.toNat / 0x10000) (by omega)
  obtain ⟨hy, hys, hyu⟩ := ofInt_exact (a := w.toNat % 0x10000)
    (Nat.lt_trans (Nat.mod_lt _ (by decide)) (by decide))
  rcases Nat.eq_zero_or_pos w.toNat with hzero | hpos
  · rw [hzero]
    decide
  · have hsum : w.toNat / 0x10000 * 0x10000 * unitsPerOne + w.toNat % 0x10000 * unitsPerOne
        = w.toNat * unitsPerOne := by
      rw [← Nat.add_mul, Nat.mul_comm (w.toNat / 0x10000), Nat.div_add_mod]
    rw [add_same_sign hx hy (hys.trans hxs.symm), hxs, hxu, hyu, hsum, ofInt, Int.natAbs_natCast,
      decide_eq_false (Int.not_lt.2 (Int.natCast_nonneg _))]
    rw [hxu, hyu, hsum]
    exact Nat.mul_pos hpos unitsPerOne_pos

end Wavefront.Single

namespace Wavefront.Quad.Float

variable (a : Quad) (i : Fin 4)

open Single (toSigned_eq toUnsigned_of_nonneg max_zero_nonneg toUnsigned_max_zero add_halves)

/-- Taking one of two words by a filled mask. -/
theorem without_or_and (c : Bool) (x y : Word) :
    (~~~fill c &&& x) ||| (fill c &&& y) = if c then y else x := by
  cases c
  · rw [show fill false = 0#32 from rfl, BitVec.not_zero, BitVec.allOnes_and, BitVec.zero_and,
      BitVec.or_zero]
    rfl
  · rw [show fill true = BitVec.allOnes 32 from rfl, BitVec.not_allOnes, BitVec.zero_and,
      BitVec.allOnes_and, BitVec.zero_or]
    rfl

@[simp] theorem get_toSigned : (toSigned a).get i = Single.toSigned ⟨a.get i⟩ := by
  rw [toSigned, get_and, get_or, get_without, get_and, QuadMask.get_words, QuadMask.get_words, ge,
    ordered, lane_compare, lane_compare, get_splat, Quad.get_splat, get_toSignedCut,
    without_or_and, Bool.and_self, BitVec.and_comm, fill_and]
  exact toSigned_eq ⟨a.get i⟩

@[simp] theorem get_toUnsigned : (toUnsigned a).get i = Single.toUnsigned ⟨a.get i⟩ := by
  obtain ⟨hn, hs⟩ := max_zero_nonneg ⟨a.get i⟩
  rw [← toUnsigned_max_zero, ← toUnsigned_of_nonneg hn hs, toUnsigned, get_or, get_or, get_without,
    get_and, QuadMask.get_words, QuadMask.get_words, without_or_and, ge, ge, lane_compare,
    lane_compare, get_xor, get_toSignedCut, get_toSignedCut, Quad.get_splat, sub, get_zip, max,
    get_zip, get_splat, get_splat, get_splat]

theorem toInt_lowHalf (x : Word) : (x &&& 0xffff).toInt = (x.toNat % 0x10000 : Nat) := by
  have hand : (x &&& 0xffff).toNat = x.toNat % 0x10000 := by
    rw [BitVec.toNat_and, show (0xffff : Word).toNat = 2 ^ 16 - 1 by decide,
      Nat.and_two_pow_sub_one_eq_mod]
  rw [BitVec.toInt_eq_toNat_of_lt (by omega), hand]

theorem toInt_highHalf (x : Word) :
    (Lane.shiftRight .unsigned x 16).toInt = (x.toNat / 0x10000 : Nat) := by
  have hx := x.isLt
  have hshift : (Lane.shiftRight .unsigned x 16).toNat = x.toNat / 0x10000 := by
    simp only [Lane.shiftRight]
    rw [if_pos (by decide), BitVec.toNat_ushiftRight, Nat.shiftRight_eq_div_pow,
      show (16 : Word).toNat = 16 by decide]
  rw [BitVec.toInt_eq_toNat_of_lt (by omega), hshift]

@[simp] theorem get_ofUnsigned : (ofUnsigned a).get i = (Single.ofInt (a.get i).toNat).bits := by
  rw [← add_halves, ofUnsigned, add, get_zip, mul, get_zip, get_ofSigned, get_ofSigned, get_and,
    Integer.get_shiftRight, Quad.get_splat, get_splat, toInt_lowHalf, toInt_highHalf,
    Single.mk_bits, Single.mk_bits, Single.mk_bits, Single.mk_bits]

end Wavefront.Quad.Float
