import Mathlib.Data.Int.ModEq
import Wavefront.Lane

/-!
# The numbers of words

A word stands for a number, signed or unsigned, and no two words for the same (`toInt_inj`), not
even up to multiples of `2 ^ 32` (`eq_of_toInt_modEq`). What wraps is that number modulo `2 ^ 32`,
whatever the signedness, so that facts about words of both signednesses are facts about integers.
-/

namespace Wavefront.Lane

variable {s : Signedness} {x y : Word}

/-- A word is what its number wraps to. -/
@[simp] theorem ofInt_toInt (s : Signedness) (x : Word) : BitVec.ofInt 32 (toInt s x) = x := by
  cases s with
  | signed => exact BitVec.ofInt_toInt
  | unsigned =>
    refine (BitVec.ofInt_natCast 32 x.toNat).trans ?_
    rw [BitVec.ofNat_toNat, BitVec.setWidth_eq]

@[simp] theorem toInt_zero (s : Signedness) : toInt s 0 = 0 := by cases s <;> rfl

/-- Words that stand for the same number are the same. -/
theorem toInt_inj : toInt s x = toInt s y ↔ x = y := by
  refine ⟨fun h => ?_, congrArg _⟩
  rw [← ofInt_toInt s x, h, ofInt_toInt]

theorem toInt_eq_zero : toInt s x = 0 ↔ x = 0 := by
  rw [← toInt_inj (s := s), toInt_zero]

/-! ## Wrapping -/

/-- Both readings of a word agree up to wrapping. -/
theorem toInt_modEq (s : Signedness) (x : Word) : toInt s x ≡ x.toNat [ZMOD 2 ^ 32] := by
  cases s with
  | signed =>
    rw [toInt, BitVec.toInt_eq_toNat_bmod]
    exact Int.bmod_emod
  | unsigned => rfl

/-- Words whose numbers agree up to wrapping are the same. -/
theorem eq_of_toInt_modEq (h : toInt s x ≡ toInt s y [ZMOD 2 ^ 32]) : x = y := by
  have hnat : (x.toNat : ℤ) ≡ y.toNat [ZMOD 2 ^ 32] :=
    (toInt_modEq s x).symm.trans (h.trans (toInt_modEq s y))
  rw [Int.ModEq, Int.emod_eq_of_lt (by omega) (by omega),
    Int.emod_eq_of_lt (by omega) (by omega)] at hnat
  exact BitVec.eq_of_toNat_eq (Int.ofNat_inj.1 hnat)

/-! ## Bounds -/

theorem neg_two_pow_le_toInt (s : Signedness) (x : Word) : -2 ^ 31 ≤ toInt s x := by
  cases s with
  | signed => exact BitVec.le_toInt x
  | unsigned => exact le_trans (by decide) (Int.natCast_nonneg x.toNat)

theorem toInt_lt_two_pow (s : Signedness) (x : Word) : toInt s x < 2 ^ 32 := by
  cases s with
  | signed => exact lt_trans BitVec.toInt_lt (by decide)
  | unsigned => exact Int.ofNat_lt.2 x.isLt

end Wavefront.Lane
