import Wavefront.Proofs.CorrectRounding
import Wavefront.Proofs.SaturatingCasts

/-!
# Casts of unsigned words to floats

The four-lane unit converts signed words only. An unsigned word is split into two halves of sixteen
bits, which are signed words like any other; they are converted, the upper one is scaled, and both
are added. A half has a value, and so has its multiple of `2^16`: only the sum is rounded.

Values from `2^24` on are integers, and below it integers are values. So a rounded word is an
integer again, and the way back changes nothing but a word that was rounded up to `2^32`.

* `correctlyRounded_ofInt`: an integer in single precision, rounded once.
* `unsigned_cast_rounds_once`: the cast of the four-lane unit, its steps, its order and the way
  back.
-/

namespace Wavefront

/-- A result that is not rounded: a finite value, and that number. -/
structure Exact (q : ℚ) (x : Single) : Prop where
  finite : x.isFinite = true
  value : x.value = q

namespace Single

variable {x : Single} {k u v : ℕ}

/-! ## Integers in single precision -/

theorem value_of_units (hs : x.negative = false) (h : x.units = k * unitsPerOne) : x.value = k := by
  rw [value, hs, if_neg Bool.false_ne_true, absolute_eq_units, h, Nat.cast_mul,
    mul_div_cancel_right₀ _ unitsPerOne_cast_pos.ne']

/-- Words are far from the largest value. -/
theorem nearestMagnitude_lt_infinite (hu : u < 2 ^ 32) :
    nearestMagnitude (u * unitsPerOne) 1 < infiniteMagnitude := by
  refine nearestMagnitude_lt_of_le (z := Quad.Float.twoTo32) Nat.one_pos (by decide) ?_
  rw [show units Quad.Float.twoTo32 = 2 ^ 32 * unitsPerOne by decide, Nat.cast_one, div_one,
    Nat.cast_le]
  exact Nat.mul_le_mul_right _ (Nat.le_of_lt hu)

/-- An integer that is no longer than a word is rounded once. -/
theorem correctlyRounded_ofInt {i : ℤ} (hi : i.natAbs < 2 ^ 32) : CorrectlyRounded i (ofInt i) := by
  refine correctlyRounded_ofRatio Nat.one_pos (nearestMagnitude_lt_infinite hi) ?_ ?_
  · rw [Nat.cast_mul, Nat.cast_natAbs, Int.cast_abs, Nat.cast_one, div_one]
  · exact decide_eq_decide.2 Int.cast_lt_zero.symm

/-- An integer up to `2^24` is not rounded. -/
theorem value_ofInt (hu : u ≤ 2 ^ 24) : (ofInt u).value = u := by
  rcases Nat.lt_or_eq_of_le hu with hlt | rfl
  · obtain ⟨-, hs, hunits⟩ := ofInt_exact (a := u) hlt
    exact value_of_units hs hunits
  · exact value_of_units (by decide +kernel) (by decide +kernel)

theorem value_twoTo24 : value ⟨0x4b800000⟩ = (2 ^ 24 : ℕ) :=
  value_of_units (by decide) (by decide)

theorem value_twoTo32 : value Quad.Float.twoTo32 = (2 ^ 32 : ℕ) :=
  value_of_units (by decide) (by decide)

/-- A rounded word is an integer, and not above `2^32`. -/
theorem exists_value_ofInt (hu : u < 2 ^ 32) : ∃ k : ℕ, k ≤ 2 ^ 32 ∧ (ofInt u).value = k := by
  rcases Nat.lt_or_ge (2 ^ 24) u with hlt | hle
  · have hr := correctlyRounded_ofInt (i := u) hu
    have hs : (ofInt u).negative = false := by
      rw [hr.sign, decide_eq_false_iff_not, not_lt]
      exact_mod_cast Nat.zero_le u
    have hlow := hr.le_of_le (z := ⟨0x4b800000⟩) (by decide) (by
      rw [value_twoTo24]
      exact_mod_cast hlt.le)
    have hhigh := hr.ge_of_ge (z := Quad.Float.twoTo32) (by decide) (by
      rw [value_twoTo32]
      exact_mod_cast hu.le)
    -- nothing is behind the point of a value from `2^23` on
    have hintegral : integralMagnitude ≤ (ofInt u).magnitude := by
      rw [value_le_iff, position, position, hs, show negative ⟨0x4b800000⟩ = false by decide,
        if_neg Bool.false_ne_true, if_neg Bool.false_ne_true, Int.ofNat_le] at hlow
      exact Nat.le_trans (by decide) hlow
    have hvalue := value_of_units hs
      (Nat.div_mul_cancel (Nat.dvd_of_mod_eq_zero (rest_of_integral hintegral))).symm
    refine ⟨_, ?_, hvalue⟩
    rw [hvalue, value_twoTo32] at hhigh
    exact_mod_cast hhigh
  · exact ⟨u, Nat.le_of_lt hu, value_ofInt hle⟩

/-! ## The way back -/

theorem towardZero_natCast (k : ℕ) : towardZero k = k := by
  rw [towardZero, if_neg (not_lt.2 k.cast_nonneg), Int.floor_natCast]

theorem toNat_toUnsigned_of_value (hx : x.isFinite = true) (hk : x.value = k) :
    x.toUnsigned.toNat = min k 0xffffffff := by
  have h := toNat_toUnsigned x
  rw [clampedWhole_of_isFinite _ _ hx, wholePart_eq_towardZero, hk, towardZero_natCast] at h
  omega

/-- On the way back only `2^32` is lost. -/
theorem exists_round_trip (hu : u < 2 ^ 32) : ∃ k : ℕ, (ofInt u).value = k ∧
    (ofInt u).toUnsigned.toNat = if k = 2 ^ 32 then 2 ^ 32 - 1 else k := by
  obtain ⟨k, hk, hvalue⟩ := exists_value_ofInt hu
  refine ⟨k, hvalue, ?_⟩
  rw [toNat_toUnsigned_of_value (correctlyRounded_ofInt (i := u) hu).finite hvalue]
  split <;> omega

theorem round_trip (hu : u ≤ 2 ^ 24) : (ofInt u).toUnsigned.toNat = u := by
  have hlt : u < 2 ^ 32 := Nat.lt_of_le_of_lt hu (by decide)
  rw [toNat_toUnsigned_of_value (correctlyRounded_ofInt (i := u) hlt).finite (value_ofInt hu)]
  omega

/-- Larger words have values that are not less. -/
theorem ofInt_mono (hv : v < 2 ^ 32) (h : u ≤ v) : le .keep (ofInt u) (ofInt v) = true := by
  have hu := correctlyRounded_ofInt (i := u) (Nat.lt_of_le_of_lt h hv)
  have hv := correctlyRounded_ofInt (i := v) hv
  rw [le_iff_value (isNaN_of_isFinite hu.finite) (isNaN_of_isFinite hv.finite)]
  exact hu.mono hv (by exact_mod_cast h)

end Single

namespace Reg

variable {i : Fin Backend.quad.lanes}

/-! ## The steps -/

/-- The lower halves of words, converted like signed words. -/
def lowHalves (a : Reg .quad .uint) : Reg .quad .float :=
  cast .float (cast .int (and a (splat (0xffff : Word))))

/-- The upper halves of words, converted like signed words. -/
def highHalves (a : Reg .quad .uint) : Reg .quad .float := cast .float (cast .int (shiftRight a 16))

/-- The upper halves, moved up by sixteen places. -/
def scaledHalves (a : Reg .quad .uint) : Reg .quad .float :=
  mul .keep (highHalves a) (splat (⟨0x47800000⟩ : Single))

theorem cast_eq_add_halves (a : Reg .quad .uint) :
    cast .float a = add .keep (scaledHalves a) (lowHalves a) := rfl

theorem lane_lowHalves (a : Reg .quad .uint) :
    (lowHalves a).lane i = Single.ofInt (BitVec.toNat (a.lane i) % 0x10000 : ℕ) := by
  rw [lowHalves, lane_cast, lane_cast, lane_and, lane_splat]
  exact congrArg Single.ofInt (Quad.Float.toInt_lowHalf _)

theorem lane_highHalves (a : Reg .quad .uint) :
    (highHalves a).lane i = Single.ofInt (BitVec.toNat (a.lane i) / 0x10000 : ℕ) := by
  rw [highHalves, lane_cast, lane_cast, lane_shiftRight]
  exact congrArg Single.ofInt (Quad.Float.toInt_highHalf _)

theorem lane_scaledHalves (a : Reg .quad .uint) :
    (scaledHalves a).lane i
      = Single.mul .keep (Single.ofInt (BitVec.toNat (a.lane i) / 0x10000 : ℕ)) ⟨0x47800000⟩ := by
  rw [scaledHalves, lane_mul, lane_highHalves, lane_splat]
  rfl

theorem lane_cast_float (a : Reg .quad .uint) :
    (cast .float a).lane i = Single.ofInt (BitVec.toNat (a.lane i) : ℕ) := lane_cast .float a i

/-- Before the sum nothing is rounded. -/
theorem exact_halves (a : Reg .quad .uint) (i : Fin Backend.quad.lanes) :
    Exact (BitVec.toNat (a.lane i) % 0x10000 : ℕ) ((lowHalves a).lane i) ∧
      Exact (BitVec.toNat (a.lane i) / 0x10000 : ℕ) ((highHalves a).lane i) ∧
      Exact (BitVec.toNat (a.lane i) / 0x10000 * 0x10000 : ℕ) ((scaledHalves a).lane i) := by
  have hexact : ∀ k : ℕ, k < 0x10000 → Exact k (Single.ofInt k) := by
    intro k hk
    obtain ⟨hfinite, hs, hunits⟩ := Single.ofInt_exact (a := k) (Nat.lt_trans hk (by decide))
    exact ⟨hfinite, Single.value_of_units hs hunits⟩
  have hhigh : BitVec.toNat (a.lane i) / 0x10000 < 0x10000 := by
    have := BitVec.isLt (a.lane i)
    omega
  rw [lane_lowHalves, lane_highHalves, lane_scaledHalves]
  refine ⟨hexact _ (Nat.mod_lt _ (by decide)), hexact _ hhigh, ?_⟩
  obtain ⟨hfinite, hs, hunits⟩ := Single.mul_exact hhigh
  exact ⟨hfinite, Single.value_of_units hs hunits⟩

/-! ## The cast -/

/-- The four-lane unit casts an unsigned word to the nearest value, ties to even: its halves and the
scaling of the upper one are exact, and only their sum is rounded. So do single lanes. The cast
keeps the order. Back in unsigned words, the words up to `2^24` are what they were, and every other
one is its rounded value, except that `2^32` has no word of its own. -/
theorem unsigned_cast_rounds_once (a b : Reg .quad .uint) (i j : Fin Backend.quad.lanes) :
    CorrectlyRounded (BitVec.toNat (a.lane i)) ((cast .float a).lane i) ∧
    (Exact (BitVec.toNat (a.lane i) % 0x10000 : ℕ) ((lowHalves a).lane i) ∧
      Exact (BitVec.toNat (a.lane i) / 0x10000 : ℕ) ((highHalves a).lane i) ∧
      Exact (BitVec.toNat (a.lane i) / 0x10000 * 0x10000 : ℕ) ((scaledHalves a).lane i) ∧
      cast .float a = add .keep (scaledHalves a) (lowHalves a)) ∧
    (cast .float a).lane i = cast (B := .scalar) (k := .uint) .float (a.lane i) ∧
    (BitVec.toNat (a.lane i) ≤ BitVec.toNat (b.lane j) →
      Single.le .keep ((cast .float a).lane i) ((cast .float b).lane j) = true) ∧
    (BitVec.toNat (a.lane i) ≤ 2 ^ 24 → (cast .uint (cast .float a)).lane i = a.lane i) ∧
    ∃ k : ℕ, Single.value ((cast .float a).lane i) = k ∧
      BitVec.toNat ((cast .uint (cast .float a)).lane i) = if k = 2 ^ 32 then 2 ^ 32 - 1 else k := by
  obtain ⟨hlow, hhigh, hscaled⟩ := exact_halves a i
  have hback : (cast .uint (cast .float a)).lane i
      = Single.toUnsigned (Single.ofInt (BitVec.toNat (a.lane i) : ℕ)) := by
    rw [lane_cast, lane_cast_float]
    rfl
  rw [hback, lane_cast_float, lane_cast_float]
  refine ⟨Single.correctlyRounded_ofInt (BitVec.isLt (a.lane i)),
    ⟨hlow, hhigh, hscaled, cast_eq_add_halves a⟩, rfl,
    Single.ofInt_mono (BitVec.isLt (b.lane j)), fun h => ?_,
    Single.exists_round_trip (BitVec.isLt (a.lane i))⟩
  exact BitVec.eq_of_toNat_eq (Single.round_trip h)

/-- The largest word, which is rounded up to `2^32`, the last one that is rounded down, a tie, and
the last word that is sure to come back. -/
theorem unsigned_cast_rounds_once_boundaries :
    let a : Reg .quad .uint := #v[0xffffffff, 0xffffff7f, 0x1000001, 0x1000000]
    BitVec.toNat (a.lane ⟨3, by decide⟩) ≤ 2 ^ 24 ∧
      (cast .uint (cast .float a)).lane ⟨3, by decide⟩ = a.lane ⟨3, by decide⟩ ∧
      BitVec.toNat (a.lane ⟨3, by decide⟩) ≤ BitVec.toNat (a.lane ⟨0, by decide⟩) ∧
      Single.le .keep ((cast .float a).lane ⟨3, by decide⟩) ((cast .float a).lane ⟨0, by decide⟩)
        = true ∧
      (cast .float a).toList.map Single.bits = [0x4f800000, 0x4f7fffff, 0x4b800000, 0x4b800000] ∧
      (cast .uint (cast .float a)).toList = [0xffffffff, 0xffffff00, 0x1000000, 0x1000000] := by
  intro a
  have hsmall : BitVec.toNat (a.lane ⟨3, by decide⟩) ≤ 2 ^ 24 := by decide +kernel
  have hle : BitVec.toNat (a.lane ⟨3, by decide⟩) ≤ BitVec.toNat (a.lane ⟨0, by decide⟩) := by
    decide +kernel
  obtain ⟨-, -, -, hmono, hback, -⟩ := unsigned_cast_rounds_once a a ⟨3, by decide⟩ ⟨0, by decide⟩
  exact ⟨hsmall, hback hsmall, hle, hmono hle, by decide +kernel, by decide +kernel⟩

end Reg

end Wavefront
