import Mathlib.Algebra.Order.Field.Basic
import Mathlib.Algebra.Order.Field.Rat
import Mathlib.Tactic.FieldSimp
import Mathlib.Tactic.Ring
import Wavefront.Proofs.Integral

/-!
# Exact values

The value of a finite pattern as a rational number, read off its three fields: the significand times
a power of two, under the sign, with a hidden leading bit unless the exponent field is zero. What it
means to round is said about this number, and not about units, which are how the rounding is done.

* `value_eq_scaled`: the value is what the pattern counts in units, at `2^-149` each.
* `value_le_iff`, `le_iff_value`: the order of values is that of positions, and so of floats.
* `absolute_eq_whole_add_rest`: an absolute value falls apart at its point.
-/

namespace Wavefront

/-- A quotient of naturals is its integer part and the rest. -/
theorem cast_div_eq {n d : Nat} (hd : 0 < d) :
    (n : ℚ) / d = (n / d : ℕ) + ((n % d : ℕ) : ℚ) / d := by
  have h : (n : ℚ) = d * (n / d : ℕ) + (n % d : ℕ) := by
    rw [← Nat.cast_mul, ← Nat.cast_add, Nat.div_add_mod]
  nth_rewrite 1 [h]
  rw [add_div, mul_div_cancel_left₀ _ (Nat.cast_ne_zero.2 hd.ne')]

namespace Single

variable {x y : Single}

/-! ## The value by fields -/

/-- The exponent field: zero for zeros and subnormal values. -/
def exponentField (x : Single) : Nat := x.magnitude / normalMagnitude

/-- The fraction field. -/
def fractionField (x : Single) : Nat := x.magnitude % normalMagnitude

/-- The value of a finite pattern without its sign. -/
def absolute (x : Single) : ℚ :=
  let fraction : ℚ := x.fractionField / 2 ^ 23
  if x.exponentField = 0 then fraction * 2 ^ (-126 : ℤ)
  else (1 + fraction) * 2 ^ ((x.exponentField : ℤ) - 127)

/-- The value of a finite pattern. -/
def value (x : Single) : ℚ := if x.negative then -x.absolute else x.absolute

theorem unitsPerOne_cast : (unitsPerOne : ℚ) = 2 ^ 149 := by
  rw [unitsPerOne, Nat.one_shiftLeft, Nat.cast_pow, Nat.cast_ofNat]

theorem unitsPerOne_cast_pos : (0 : ℚ) < unitsPerOne := Nat.cast_pos.2 unitsPerOne_pos

/-- The fields of a pattern stand for its units. -/
theorem absolute_eq_units (x : Single) : x.absolute = x.units / unitsPerOne := by
  rw [absolute, units, unitsPerOne_cast]
  rcases Nat.lt_or_ge x.magnitude normalMagnitude with h | h
  · have he : x.exponentField = 0 := Nat.div_eq_of_lt h
    have hf : x.fractionField = x.magnitude := Nat.mod_eq_of_lt h
    rw [if_pos he, hf, unitsOf_of_lt h, zpow_neg]
    field_simp
  · obtain ⟨e, f, hf, hm⟩ := exists_normal h
    have he : x.exponentField = e + 1 := by
      rw [exponentField, hm, Nat.add_comm, Nat.add_mul_div_right f _ (by decide),
        Nat.div_eq_of_lt hf, Nat.zero_add]
    have hrest : x.fractionField = f := by
      rw [fractionField, hm, Nat.add_comm, Nat.add_mul_mod_self_right, Nat.mod_eq_of_lt hf]
    have hexp : ((e + 1 : ℕ) : ℤ) - 127 = e - 126 := by omega
    rw [if_neg (by rw [he]; exact Nat.succ_ne_zero e), he, hrest, hm, unitsOf_normal hf,
      Nat.shiftLeft_eq, hexp, zpow_sub₀ two_ne_zero, zpow_natCast,
      show normalMagnitude = 2 ^ 23 from rfl]
    push_cast
    field_simp
    norm_num

/-- The value counts units. -/
theorem value_eq_scaled (x : Single) : x.value = x.scaled / unitsPerOne := by
  rw [value, absolute_eq_units, scaled, apply_ite (Int.cast : ℤ → ℚ), Int.cast_neg,
    Int.cast_natCast, ite_div, neg_div]

theorem absolute_nonneg (x : Single) : 0 ≤ x.absolute := by
  rw [absolute_eq_units]
  exact div_nonneg (Nat.cast_nonneg _) unitsPerOne_cast_pos.le

theorem abs_value (x : Single) : |x.value| = x.absolute := by
  rw [value]
  split
  · rw [abs_neg, abs_of_nonneg x.absolute_nonneg]
  · exact abs_of_nonneg x.absolute_nonneg

/-- An absolute value is what is before its point and what is behind it. -/
theorem absolute_eq_whole_add_rest (x : Single) :
    x.absolute =
      (x.units / unitsPerOne : ℕ) + ((x.units % unitsPerOne : ℕ) : ℚ) / unitsPerOne :=
  x.absolute_eq_units.trans (cast_div_eq unitsPerOne_pos)

/-! ## Order -/

/-- Counting units and counting magnitudes order the patterns alike, both signs included. -/
theorem scaled_le_iff : x.scaled ≤ y.scaled ↔ x.position ≤ y.position := by
  have hle : ∀ m m' : Nat, unitsOf m ≤ unitsOf m' ↔ m ≤ m' :=
    fun _ _ => unitsOf_strictMono.le_iff_le
  have hzero : ∀ m : Nat, unitsOf m = 0 ↔ m = 0 := fun m =>
    unitsOf_strictMono.injective.eq_iff' unitsOf_zero
  have hxy := hle x.magnitude y.magnitude
  have hyx := hle y.magnitude x.magnitude
  have hx := hzero x.magnitude
  have hy := hzero y.magnitude
  rw [scaled, scaled, position, position, units, units]
  cases x.negative <;> cases y.negative <;>
    simp only [Bool.false_eq_true, if_false, if_true] <;> omega

theorem value_le_iff : x.value ≤ y.value ↔ x.position ≤ y.position := by
  rw [value_eq_scaled, value_eq_scaled, div_le_div_iff_of_pos_right unitsPerOne_cast_pos,
    Int.cast_le, scaled_le_iff]

theorem scaled_inj : x.scaled = y.scaled ↔ x.position = y.position := by
  rw [le_antisymm_iff, le_antisymm_iff, scaled_le_iff, scaled_le_iff]

/-- On numbers, the order of floats is the order of their values. -/
theorem le_iff_value (hx : x.isNaN = false) (hy : y.isNaN = false) :
    le .keep x y = true ↔ x.value ≤ y.value :=
  (le_keep_iff hx hy).trans value_le_iff.symm

theorem eq_iff_scaled (hx : x.isNaN = false) (hy : y.isNaN = false) :
    eq .keep x y = true ↔ x.scaled = y.scaled := by
  rw [scaled_inj, eq, operand_keep, operand_keep, hx, hy]
  exact beq_iff_eq

end Single

end Wavefront
