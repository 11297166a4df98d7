import Wavefront.Proofs.FaithfulRounding
import Wavefront.Proofs.HalvesToEven

/-!
# The fractional part

What is above the floor of a value is less than one, but the difference from the floor is rounded,
and that may reach one: between the value below one and one itself the upper half is rounded up, the
middle included, as one has an even fraction (`lt_one_iff`).

Only negative values next to zero have so much above their floor (`fract_near_one_iff`). From one
half on, what is above the floor has a magnitude, so it is not above the value below one
(`fract_le_belowOne`); below one half it is the value itself, or one more.

Main statement: `fract_range`.
-/

namespace Wavefront

namespace Single

variable {x y : Single} {q : ℚ}

/-! ## Below one -/

/-- The value below one. -/
def belowOne : Single := ⟨0x3f7fffff⟩

theorem value_one : one.value = 1 := by
  rw [value_eq_scaled, show one.scaled = unitsPerOne by decide, Int.cast_natCast,
    div_self unitsPerOne_cast_pos.ne']

theorem value_belowOne : belowOne.value = 1 - 1 / 2 ^ 24 := by
  rw [value_eq_scaled, show belowOne.scaled = (2 ^ 24 - 1) * 2 ^ 125 by decide, unitsPerOne_cast]
  norm_num

/-- Nothing is between. -/
theorem le_belowOne_iff : y.value ≤ belowOne.value ↔ y.value < 1 := by
  have hone : one.position = belowOne.position + 1 := by decide
  rw [← value_one, ← not_le, value_le_iff, value_le_iff, hone]
  omega

/-- From the middle between the two on, a number is rounded to one or more. -/
theorem lt_one_iff (h : CorrectlyRounded q y) : y.value < 1 ↔ q < 1 - 1 / 2 ^ 25 := by
  constructor
  · intro hlt
    by_contra hq
    have hq := not_lt.1 hq
    have hbelow := le_belowOne_iff.2 hlt
    have hnear := h.le one (by decide)
    rw [value_belowOne] at hbelow
    rw [value_one] at hnear
    have hmiddle := two_mul_le_of_nearer hlt hnear
    -- so it is the middle, and then the fraction would have to be even
    have hy : y.value = belowOne.value := by
      rw [value_belowOne]
      linarith
    have htie : |q - one.value| = |q - y.value| := by
      rw [value_one, hy, value_belowOne, abs_of_nonpos (by linarith), abs_of_nonneg (by linarith)]
      linarith
    have heven := h.tie one (by decide) (by rw [value_one]; exact hlt.ne') htie
    rw [even_fractionField, abs_value_inj.1 (congrArg _ hy)] at heven
    exact absurd heven (by decide)
  · intro hq
    by_contra hlt
    have hlt := not_lt.1 hlt
    have hnear := h.le belowOne (by decide)
    have hmiddle := le_two_mul_of_nearer (by rw [value_belowOne]; linarith) hnear
    rw [value_belowOne] at hmiddle
    linarith

/-! ## Above the floor -/

/-- Between minus one and zero a number is above minus one. -/
theorem fract_eq_add_one (hlow : -1 ≤ q) (hneg : q < 0) : Int.fract q = q + 1 := by
  have hfloor : ⌊q⌋ = -1 := Int.floor_eq_iff.2 (by constructor <;> push_cast <;> linarith)
  rw [Int.fract, hfloor, Int.cast_neg, Int.cast_one, sub_neg_eq_add]

theorem fract_value (hx : x.isFinite = true) :
    Int.fract x.value = (x.aboveFloor : ℚ) / unitsPerOne := by
  obtain ⟨-, hrest⟩ := scaled_sub_floor hx
  obtain ⟨-, -, k, rfl, hk⟩ := (rounded_floor x).finite hx
  have hrest : (x.scaled : ℚ) - x.floor.scaled = x.aboveFloor := by exact_mod_cast hrest
  rw [Int.fract, ← hk, value_eq_scaled, value_eq_scaled, ← sub_div, hrest]

/-- The difference from the floor is what is above it, rounded, and no zero is negative. -/
theorem sub_floor (hx : x.isFinite = true) :
    sub .keep x x.floor = ofRatio .keep false x.aboveFloor 1 := by
  obtain ⟨hfloor, hrest⟩ := scaled_sub_floor hx
  have hsign := ((rounded_floor x).finite hx).2.1
  rw [sub_keep hx hfloor, hrest, hsign, Bool.and_not_self, Int.natAbs_natCast,
    decide_eq_false (Int.natCast_nonneg _).not_gt]
  split
  case isTrue hzero =>
    rw [Int.natCast_eq_zero.1 hzero, ofRatio_keep, nearestMagnitude_zero]
    rfl
  case isFalse => rfl

theorem aboveFloor_lt (hx : x.isFinite = true) : x.aboveFloor < unitsPerOne := by
  have hlt := Int.fract_lt_one x.value
  rw [fract_value hx, div_lt_one unitsPerOne_cast_pos] at hlt
  exact Nat.cast_lt.1 hlt

/-- What is above the floor is rounded once. -/
theorem correctlyRounded_sub_floor (hx : x.isFinite = true) :
    CorrectlyRounded (Int.fract x.value) (sub .keep x x.floor) := by
  have hnonneg := Int.fract_nonneg x.value
  have hfinite : nearestMagnitude x.aboveFloor 1 < infiniteMagnitude := by
    refine nearestMagnitude_lt_of_le (z := one) Nat.one_pos (by decide) ?_
    rw [show one.units = unitsPerOne by decide, Nat.cast_one, div_one, Nat.cast_le]
    exact Nat.le_of_lt (aboveFloor_lt hx)
  rw [sub_floor hx]
  refine correctlyRounded_ofRatio Nat.one_pos hfinite ?_ (decide_eq_false hnonneg.not_gt).symm
  rw [abs_of_nonneg hnonneg, fract_value hx, div_mul_cancel₀ _ unitsPerOne_cast_pos.ne',
    Nat.cast_one, div_one]

/-- From one half on, what is above the floor has a magnitude, so it is not above the value below
one. -/
theorem fract_le_belowOne (hx : x.isFinite = true) (hlarge : unitsPerOne ≤ 2 * x.units) :
    Int.fract x.value ≤ belowOne.value := by
  obtain ⟨m, -, hm⟩ := exists_aboveFloor hlarge
  have hone : unitsOf (belowOne.magnitude + 1) = unitsPerOne := by decide
  have hlt : m < belowOne.magnitude + 1 := by
    rw [← unitsOf_strictMono.lt_iff_lt, hm, hone]
    exact aboveFloor_lt hx
  rw [fract_value hx, value_eq_scaled, div_le_div_iff_of_pos_right unitsPerOne_cast_pos, ← hm,
    show belowOne.scaled = unitsOf belowOne.magnitude by decide, Int.cast_natCast, Nat.cast_le]
  exact unitsOf_strictMono.monotone (Nat.le_of_lt_succ hlt)

/-- Only negative values next to zero have so much above their floor. -/
theorem fract_near_one_iff (hx : x.isFinite = true) :
    1 - 1 / 2 ^ 25 ≤ Int.fract x.value ↔ -(1 / 2 ^ 25) ≤ x.value ∧ x.value < 0 := by
  constructor
  · intro hnear
    have hsmall : 2 * x.units < unitsPerOne := by
      by_contra hlarge
      have hle := fract_le_belowOne hx (not_lt.1 hlarge)
      rw [value_belowOne] at hle
      linarith
    have habs : |x.value| < 1 / 2 := by
      have hcast : (2 : ℚ) * x.units < unitsPerOne := by exact_mod_cast hsmall
      rw [abs_value, absolute_eq_units, div_lt_iff₀ unitsPerOne_cast_pos]
      linarith
    obtain ⟨hlow, hhigh⟩ := abs_lt.1 habs
    rcases lt_or_ge x.value 0 with hneg | hpos
    · rw [fract_eq_add_one (by linarith) hneg] at hnear
      exact ⟨by linarith, hneg⟩
    · rw [Int.fract_eq_self.2 ⟨hpos, by linarith⟩] at hnear
      linarith
  · rintro ⟨hlow, hneg⟩
    rw [fract_eq_add_one (by linarith) hneg]
    linarith

end Single

namespace Batch

variable {B : Backend} {n : Nat} {lib : MathLibrary}

theorem lane_fract (x : Batch B .float n) (i : Fin (width B n)) :
    (x.fract lib).lane i = Single.sub .keep (x.lane i) (Lane.floorLane lib B (x.lane i)) := by
  simp [fract, Lane.sub]

/-- The fractional part of a finite lane is what is above its floor, rounded once. It is at least
zero and at most one, and less than one except for the negative values from `-2^-25` on. The floor
of the library is taken to be exact. -/
theorem fract_range (hlib : lib.Exact) (x : Batch B .float n) (i : Fin (width B n))
    (hx : Single.isFinite (x.lane i) = true) :
    CorrectlyRounded (Int.fract (Single.value (x.lane i))) ((x.fract lib).lane i) ∧
      0 ≤ Single.value ((x.fract lib).lane i) ∧ Single.value ((x.fract lib).lane i) ≤ 1 ∧
      (Single.value ((x.fract lib).lane i) < 1 ↔
        ¬(-(1 / 2 ^ 25) ≤ Single.value (x.lane i) ∧ Single.value (x.lane i) < 0)) := by
  have hrounded := Single.correctlyRounded_sub_floor hx
  rw [lane_fract, hlib.floorLane_eq B (Single.isNaN_of_isFinite hx),
    ← Single.fract_near_one_iff hx, not_le]
  have hzero : Single.value (.zero false) = 0 := Single.value_eq_zero_iff.2 (by decide)
  refine ⟨hrounded, ?_, ?_, Single.lt_one_iff hrounded⟩
  · rw [← hzero]
    exact hrounded.le_of_le (by decide) (by rw [hzero]; exact Int.fract_nonneg _)
  · rw [← Single.value_one]
    exact hrounded.ge_of_ge (by decide) (by rw [Single.value_one]; exact (Int.fract_lt_one _).le)

/-- `-2^-25` and the value beside it on each side, and `-7/4`. -/
theorem fract_range_boundaries :
    let x : Batch .quad .float 1 := ⟨#v[#v[0xb3000001, 0xb3000000, 0xb2ffffff, 0xbfe00000]]⟩
    let lib := MathLibrary.double
    lib.Exact ∧ (∀ i, Single.isFinite (x.lane i) = true ∧
      0 ≤ Single.value ((x.fract lib).lane i) ∧ Single.value ((x.fract lib).lane i) ≤ 1) ∧
      (x.fract lib).toList.map Single.bits = [0x3f7fffff, 0x3f800000, 0x3f800000, 0x3e800000] := by
  intro x lib
  have hlib : lib.Exact := MathLibrary.lawful_double.toExact
  have hx : ∀ i, Single.isFinite (x.lane i) = true := by decide +kernel
  refine ⟨hlib, fun i => ?_, by decide +kernel⟩
  obtain ⟨-, hlow, hhigh, -⟩ := fract_range hlib x i (hx i)
  exact ⟨hx i, hlow, hhigh⟩

/-- So the fractional part of `-2^-30` is not less than one. -/
theorem fract_reaches_one :
    let x : Batch .quad .float 1 := ⟨#v[#v[0xb0800000, 0xb0800000, 0xb0800000, 0xb0800000]]⟩
    ∀ i, Single.isFinite (x.lane i) = true ∧ (x.fract .double).lane i = Single.one ∧
      ¬Single.value ((x.fract .double).lane i) < 1 := by
  intro x i
  have hone : ∀ i, (x.fract .double).lane i = Single.one := by decide +kernel
  refine ⟨by revert i; decide +kernel, hone i, ?_⟩
  rw [hone i, Single.value_one]
  exact lt_irrefl 1

end Batch

end Wavefront
