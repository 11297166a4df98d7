import Mathlib.Order.Monotone.Basic
import Mathlib.Order.Fin.Basic
import Wavefront.Proofs.SignMagnitude

/-!
# Units and exact rounding

Magnitudes and units are two scales for the same absolute values, and `unitsOf` leads from the first
to the second. It is strictly increasing (`unitsOf_strictMono`), so both scales have one order, and
rounding leads back: `nearestMagnitude_unitsOf` says that a value which has a magnitude is rounded
to it. All that is left to ask of an exact result is then whether it has one.

* `exists_unitsOf`: a significand of at most 24 bits, shifted by any number of places, has one.
* `ofRatio_unitsOf`, `ofRatio_units`: rounding what has one changes nothing.
-/

namespace Wavefront

/-- A whole quotient is not rounded. -/
theorem nearestEven_mul_self {d : Nat} (hd : 0 < d) (a : Nat) : nearestEven (a * d) d = a := by
  simp only [nearestEven, Nat.mul_mod_left, Nat.mul_zero, if_pos hd]
  exact Nat.mul_div_cancel a hd

/-- Only the ratio counts. -/
theorem nearestEven_mul_right {c : Nat} (hc : 0 < c) (a d : Nat) :
    nearestEven (a * c) (d * c) = nearestEven a d := by
  have hlt : ∀ a b : Nat, a * c < b * c ↔ a < b := fun a b => Nat.mul_lt_mul_right hc
  simp only [nearestEven, Nat.mul_div_mul_right a d hc, Nat.mul_mod_mul_right, ← Nat.mul_assoc, hlt]

namespace Single

variable {m m' s k : Nat} {sign : Bool} {x : Single}

/-! ## The two scales -/

theorem unitsOf_of_lt (h : m < normalMagnitude) : unitsOf m = m := if_pos h

theorem unitsOf_zero : unitsOf 0 = 0 := unitsOf_of_lt (by decide)

/-- A magnitude with a full-width significand is a fraction behind a binade. -/
theorem exists_normal (h : normalMagnitude ≤ m) :
    ∃ e f, f < normalMagnitude ∧ m = (e + 1) * normalMagnitude + f := by
  refine ⟨m / normalMagnitude - 1, m % normalMagnitude, Nat.mod_lt _ (by decide), ?_⟩
  have hpos : 0 < m / normalMagnitude := Nat.div_pos h (by decide)
  rw [Nat.sub_add_cancel hpos, Nat.mul_comm]
  exact (Nat.div_add_mod m normalMagnitude).symm

theorem unitsOf_normal {e f : Nat} (hf : f < normalMagnitude) :
    unitsOf ((e + 1) * normalMagnitude + f) = (normalMagnitude + f) <<< e := by
  have hle : ¬(e + 1) * normalMagnitude + f < normalMagnitude := by
    rw [Nat.succ_mul]
    omega
  rw [unitsOf, if_neg hle, Nat.add_comm _ f, Nat.add_mul_mod_self_right, Nat.mod_eq_of_lt hf,
    Nat.add_mul_div_right f _ (by decide), Nat.div_eq_of_lt hf, Nat.zero_add, Nat.add_sub_cancel]

/-- The next magnitude stands for a larger value, also across a binade. -/
theorem unitsOf_lt_succ (m : Nat) : unitsOf m < unitsOf (m + 1) := by
  rcases Nat.lt_or_ge m normalMagnitude with h | h
  · rw [unitsOf_of_lt h]
    rcases Nat.lt_or_ge (m + 1) normalMagnitude with h' | h'
    · rw [unitsOf_of_lt h']
      exact Nat.lt_succ_self m
    · obtain rfl : m = 0x7fffff := by
        rw [normalMagnitude] at h h'
        omega
      decide
  · obtain ⟨e, f, hf, rfl⟩ := exists_normal h
    rw [unitsOf_normal hf, Nat.add_assoc]
    rcases Nat.lt_or_ge (f + 1) normalMagnitude with hf' | hf'
    · rw [unitsOf_normal hf', Nat.shiftLeft_eq, Nat.shiftLeft_eq]
      exact Nat.mul_lt_mul_of_pos_right (by omega) (Nat.two_pow_pos e)
    · -- the last fraction of a binade is followed by the first one of the next
      have hnext : (e + 1) * normalMagnitude + (f + 1) = (e + 1 + 1) * normalMagnitude + 0 := by
        rw [Nat.succ_mul (e + 1)]
        omega
      rw [hnext, unitsOf_normal (by decide), Nat.shiftLeft_succ, Nat.shiftLeft_eq, Nat.shiftLeft_eq,
        ← Nat.mul_assoc]
      exact Nat.mul_lt_mul_of_pos_right (by omega) (Nat.two_pow_pos e)

theorem unitsOf_strictMono : StrictMono unitsOf := strictMono_nat_of_lt_succ unitsOf_lt_succ

/-! ## Rounding what has a magnitude -/

theorem log2_significand {a e : Nat} (hlow : normalMagnitude ≤ a)
    (hhigh : a < 2 * normalMagnitude) : Nat.log2 (a <<< e) = 23 + e := by
  rw [normalMagnitude] at hlow hhigh
  have hpos := Nat.two_pow_pos e
  rw [Nat.shiftLeft_eq, Nat.log2_eq_iff (Nat.ne_of_gt (Nat.mul_pos (by omega) hpos)),
    Nat.add_right_comm, Nat.pow_add, Nat.pow_add]
  exact ⟨Nat.mul_le_mul_right _ hlow, Nat.mul_lt_mul_of_pos_right hhigh hpos⟩

/-- A value that has a magnitude is rounded to it. -/
theorem nearestMagnitude_unitsOf (h : m ≤ infiniteMagnitude) :
    nearestMagnitude (unitsOf m) 1 = m := by
  rcases Nat.lt_or_ge m normalMagnitude with hm | hm
  · have hbinade : Nat.log2 m - 23 = 0 := by
      rcases Nat.eq_zero_or_pos m with rfl | hpos
      · rfl
      · have := (Nat.log2_lt (Nat.ne_of_gt hpos)).2 (show m < 2 ^ 23 from hm)
        omega
    simp only [nearestMagnitude, unitsOf_of_lt hm, Nat.div_one, hbinade, Nat.shiftLeft_zero]
    have hround : nearestEven m 1 = m := by simpa using nearestEven_mul_self Nat.one_pos m
    rw [hround, Nat.zero_mul, Nat.zero_add, Nat.min_eq_left h]
  · obtain ⟨e, f, hf, rfl⟩ := exists_normal hm
    have hbinade : Nat.log2 ((normalMagnitude + f) <<< e) - 23 = e := by
      rw [log2_significand (by omega) (by omega)]
      omega
    simp only [nearestMagnitude, unitsOf_normal hf, Nat.div_one, hbinade, Nat.one_shiftLeft]
    rw [Nat.shiftLeft_eq, nearestEven_mul_self (Nat.two_pow_pos e), ← Nat.add_assoc, ← Nat.succ_mul]
    exact Nat.min_eq_left h

/-- Only the ratio counts. -/
theorem nearestMagnitude_mul_right {c : Nat} (hc : 0 < c) (a : Nat) :
    nearestMagnitude (a * c) c = nearestMagnitude a 1 := by
  have hround : ∀ b, nearestEven (a * c) (c <<< b) = nearestEven a (1 <<< b) := by
    intro b
    rw [Nat.shiftLeft_eq, Nat.shiftLeft_eq, Nat.one_mul, Nat.mul_comm c, nearestEven_mul_right hc]
  simp only [nearestMagnitude, Nat.mul_div_cancel a hc, Nat.div_one, hround]

theorem nearestMagnitude_le (num den : Nat) : nearestMagnitude num den ≤ infiniteMagnitude :=
  Nat.min_le_right _ _

/-- A significand of at most 24 bits has a magnitude, wherever its point is. -/
theorem exists_unitsOf (hs : s < 2 * normalMagnitude) (k : Nat) : ∃ m, unitsOf m = s <<< k := by
  induction k generalizing s with
  | zero =>
    rcases Nat.lt_or_ge s normalMagnitude with h | h
    · exact ⟨s, unitsOf_of_lt h⟩
    · refine ⟨(0 + 1) * normalMagnitude + (s - normalMagnitude), ?_⟩
      rw [unitsOf_normal (by omega), Nat.add_sub_cancel' h]
  | succ k ih =>
    rcases Nat.lt_or_ge s normalMagnitude with h | h
    · -- a shorter significand can be written with one place more
      obtain ⟨m, hm⟩ := ih (s := 2 * s) (by omega)
      refine ⟨m, hm.trans ?_⟩
      rw [Nat.shiftLeft_eq, Nat.shiftLeft_eq, Nat.pow_succ, Nat.mul_comm 2 s, Nat.mul_assoc,
        Nat.mul_comm 2]
    · refine ⟨(k + 1 + 1) * normalMagnitude + (s - normalMagnitude), ?_⟩
      rw [unitsOf_normal (by omega), Nat.add_sub_cancel' h]

/-! ## Rounded values -/

theorem ofRatio_keep (sign : Bool) (num den : Nat) :
    ofRatio .keep sign num den = ofParts sign (nearestMagnitude num den) := rfl

/-- Rounding what has a magnitude changes nothing. -/
theorem ofRatio_unitsOf (h : m ≤ infiniteMagnitude) :
    ofRatio .keep sign (unitsOf m) 1 = ofParts sign m := by
  rw [ofRatio_keep, nearestMagnitude_unitsOf h]

theorem ofRatio_units (h : x.isFinite = true) : ofRatio .keep x.negative x.units 1 = x := by
  rw [units, ofRatio_unitsOf (Nat.le_of_lt (isFinite_iff.1 h)), ofParts_parts]

theorem lt_of_le_infinite (h : m ≤ infiniteMagnitude) : m < 0x80000000 :=
  Nat.lt_of_le_of_lt h (by decide)

@[simp] theorem negative_ofRatio (sign : Bool) (num den : Nat) :
    (ofRatio .keep sign num den).negative = sign :=
  negative_ofParts (lt_of_le_infinite (nearestMagnitude_le num den))

@[simp] theorem magnitude_ofRatio (sign : Bool) (num den : Nat) :
    (ofRatio .keep sign num den).magnitude = nearestMagnitude num den :=
  magnitude_ofParts (lt_of_le_infinite (nearestMagnitude_le num den))

theorem isNaN_ofRatio (sign : Bool) (num den : Nat) :
    (ofRatio .keep sign num den).isNaN = false := by
  rw [isNaN, magnitude_ofRatio]
  exact decide_eq_false (Nat.not_lt.2 (nearestMagnitude_le num den))

end Single

end Wavefront
