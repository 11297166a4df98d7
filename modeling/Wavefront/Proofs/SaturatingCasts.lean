import Wavefront.Proofs.RoundingDirections

/-!
# Casts that saturate

A float becomes an integer by cutting its exact value toward zero and keeping it within the range of
the target. Both steps keep the order of numbers, infinities included, so the cast does.

* `saturated_clampedWhole`, `clampedWhole_mono`: the cast of one lane, before it is a word.
* `casts_saturate`: those of the four-lane unit, which converts signed words only.
-/

namespace Wavefront

/-- `v` is the value of `x` cut toward zero and kept within a range. Infinities are beyond every
range, and NaN counts as zero. -/
structure Saturated (low high : ℤ) (x : Single) (v : ℤ) : Prop where
  /-- a number within the range is cut, and one outside goes to the bound -/
  finite : x.isFinite = true → v = max low (min high (towardZero x.value))
  /-- infinities go to the bound -/
  infinite : x.isInfinite = true → v = if x.negative then low else high
  /-- NaN goes to zero -/
  nan : x.isNaN = true → v = 0

namespace Single

variable {x y : Single} {low high : ℤ}

theorem wholePart_eq_towardZero (x : Single) : x.wholePart = towardZero x.value := by
  obtain ⟨hlow, hhigh⟩ := rest_bounds (n := x.units) unitsPerOne_pos
  rw [wholePart, value_eq_signed, towardZero_signed hlow hhigh]

theorem saturated_clampedWhole (low high : ℤ) (x : Single) :
    Saturated low high x (x.clampedWhole low high) := by
  refine ⟨fun hx => ?_, fun hx => ?_, fun hx => ?_⟩
  · rw [clampedWhole_of_isFinite low high hx, wholePart_eq_towardZero]
  · exact clampedWhole_of_isInfinite low high hx
  · exact clampedWhole_of_isNaN low high hx

/-- What is kept within a range is in it, also for NaN when zero is. -/
theorem clampedWhole_bounds (low high : ℤ) (hlow : low ≤ 0) (hhigh : 0 ≤ high) (x : Single) :
    low ≤ x.clampedWhole low high ∧ x.clampedWhole low high ≤ high := by
  rw [clampedWhole]
  split
  · exact ⟨hlow, hhigh⟩
  · split
    · split <;> omega
    · omega

/-! ## Order -/

/-- The infinite magnitude stands for `2^128`, which is beyond every range in question, so
infinities need no case of their own. -/
theorem clampedWhole_of_number (hlow : -2 ^ 128 ≤ low) (hhigh : high ≤ 2 ^ 128) (h : low ≤ high)
    (hx : x.isNaN = false) : x.clampedWhole low high = max low (min high (towardZero x.value)) := by
  rw [← wholePart_eq_towardZero]
  rcases trichotomy x with ⟨hf, -, -⟩ | ⟨-, hi, -⟩ | ⟨-, -, hn⟩
  · exact clampedWhole_of_isFinite low high hf
  · have htop : unitsOf infiniteMagnitude / unitsPerOne = 2 ^ 128 := by decide
    rw [clampedWhole_of_isInfinite low high hi, wholePart, units, isInfinite_iff.1 hi, htop]
    cases x.negative
    · simp only [Bool.false_eq_true, if_false]
      omega
    · simp only [if_true]
      omega
  · exact absurd hn (by rw [hx]; exact Bool.false_ne_true)

theorem number_of_le (h : le .keep x y = true) : x.isNaN = false ∧ y.isNaN = false := by
  rw [le, operand_keep, operand_keep, Bool.and_eq_true, Bool.and_eq_true] at h
  simpa using h.1

/-- The cast keeps the order of numbers. -/
theorem clampedWhole_mono (hlow : -2 ^ 128 ≤ low) (hhigh : high ≤ 2 ^ 128) (h : low ≤ high)
    (hle : le .keep x y = true) : x.clampedWhole low high ≤ y.clampedWhole low high := by
  obtain ⟨hx, hy⟩ := number_of_le hle
  rw [clampedWhole_of_number hlow hhigh h hx, clampedWhole_of_number hlow hhigh h hy]
  have hwhole := towardZero_mono ((le_iff_value hx hy).1 hle)
  exact max_le_max_left low (min_le_min_left high hwhole)

/-! ## Words -/

theorem toInt_toSigned (x : Single) :
    x.toSigned.toInt = x.clampedWhole (-0x80000000) 0x7fffffff := by
  obtain ⟨hlow, hhigh⟩ := clampedWhole_bounds (-0x80000000) 0x7fffffff (by decide) (by decide) x
  exact BitVec.toInt_ofInt_eq_self (by decide) hlow (Int.lt_add_one_of_le hhigh)

theorem toNat_toUnsigned (x : Single) :
    (x.toUnsigned.toNat : ℤ) = x.clampedWhole 0 0xffffffff := by
  obtain ⟨hlow, hhigh⟩ := clampedWhole_bounds 0 0xffffffff (by decide) (by decide) x
  rw [toUnsigned, BitVec.toNat_ofInt]
  omega

theorem saturated_toSigned (x : Single) :
    Saturated (-0x80000000) 0x7fffffff x x.toSigned.toInt := by
  rw [toInt_toSigned]
  exact saturated_clampedWhole _ _ x

theorem saturated_toUnsigned (x : Single) : Saturated 0 0xffffffff x x.toUnsigned.toNat := by
  rw [toNat_toUnsigned]
  exact saturated_clampedWhole _ _ x

theorem toSigned_mono (h : le .keep x y = true) : x.toSigned.toInt ≤ y.toSigned.toInt := by
  rw [toInt_toSigned, toInt_toSigned]
  exact clampedWhole_mono (by decide) (by decide) (by decide) h

theorem toUnsigned_mono (h : le .keep x y = true) : x.toUnsigned.toNat ≤ y.toUnsigned.toNat := by
  rw [← Int.ofNat_le, toNat_toUnsigned, toNat_toUnsigned]
  exact clampedWhole_mono (by decide) (by decide) (by decide) h

end Single

namespace Reg

/-- The four-lane unit casts floats to words by cutting the exact value toward zero and keeping it
within the range of the word, on every pattern. So do single lanes, and larger numbers give larger
words. -/
theorem casts_saturate (a b : Reg .quad .float) (i j : Fin Backend.quad.lanes) :
    Saturated (-0x80000000) 0x7fffffff (a.lane i) (BitVec.toInt ((cast .int a).lane i)) ∧
    Saturated 0 0xffffffff (a.lane i) (BitVec.toNat ((cast .uint a).lane i)) ∧
    (cast .int a).lane i = cast (B := .scalar) (k := .float) .int (a.lane i) ∧
    (cast .uint a).lane i = cast (B := .scalar) (k := .float) .uint (a.lane i) ∧
    (Single.le .keep (a.lane i) (b.lane j) = true →
      BitVec.toInt ((cast .int a).lane i) ≤ BitVec.toInt ((cast .int b).lane j) ∧
      BitVec.toNat ((cast .uint a).lane i) ≤ BitVec.toNat ((cast .uint b).lane j)) := by
  simp only [lane_cast]
  exact ⟨Single.saturated_toSigned _, Single.saturated_toUnsigned _, rfl, rfl,
    fun h => ⟨Single.toSigned_mono h, Single.toUnsigned_mono h⟩⟩

/-- The values at the upper ends of both ranges, one below the lower end, and the negative zero,
compared with their neighbours, an infinity and a NaN. -/
theorem casts_saturate_boundaries :
    let a : Reg .quad .float := #v[0x4effffff, 0x4f800000, 0xcf000001, 0x80000000]
    let b : Reg .quad .float := #v[0x4f000000, 0x4f7fffff, 0xff800000, 0x7fc00000]
    Single.le .keep (a.lane ⟨0, by decide⟩) (b.lane ⟨0, by decide⟩) = true ∧
      BitVec.toInt ((cast .int a).lane ⟨0, by decide⟩)
        ≤ BitVec.toInt ((cast .int b).lane ⟨0, by decide⟩) ∧
      (cast .int a).toList = [0x7fffff80, 0x7fffffff, 0x80000000, 0] ∧
      (cast .int b).toList = [0x7fffffff, 0x7fffffff, 0x80000000, 0] ∧
      (cast .uint a).toList = [0x7fffff80, 0xffffffff, 0, 0] ∧
      (cast .uint b).toList = [0x80000000, 0xffffff00, 0, 0] := by
  intro a b
  have hle : Single.le .keep (a.lane ⟨0, by decide⟩) (b.lane ⟨0, by decide⟩) = true := by
    decide +kernel
  obtain ⟨-, -, -, -, hmono⟩ := casts_saturate a b ⟨0, by decide⟩ ⟨0, by decide⟩
  exact ⟨hle, (hmono hle).1, by decide +kernel, by decide +kernel, by decide +kernel,
    by decide +kernel⟩

end Reg

end Wavefront
