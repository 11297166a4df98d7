import Wavefront.Proofs.IntegerRounding
import Wavefront.Proofs.LawfulLibrary

/-!
# Floats rounded to integral values

A float is `Rounded` in a direction when its exact value is, with the sign bit kept. Every direction
settles on the integer part of the absolute value or, where something is cut off, on one more
(`toIntegral_exact`); both are exact, so a direction is right as soon as it is for rational numbers
(`rounded_toIntegral`).

* `rounded_trunc`, `rounded_floor`, `rounded_ceil`, `rounded_round`: the directions of one lane.
* `rounding_exact`: those of the four-lane unit, which puts each together from conversions,
  comparisons and bit moves.
-/

namespace Wavefront

/-! ## Integral values of floats -/

/-- `y` is `x` rounded to an integer in a direction, which a relation between values and integers
gives. The sign bit is kept, that of a zero included; what is not finite stays what it is. -/
structure Rounded (direction : ℚ → ℤ → Prop) (x y : Single) : Prop where
  /-- an integral value of the same sign -/
  finite : x.isFinite = true →
    y.isFinite = true ∧ y.negative = x.negative ∧ ∃ k : ℤ, direction x.value k ∧ y.value = k
  /-- infinities are kept -/
  infinite : x.isInfinite = true → y = x
  /-- NaN gives NaN, though perhaps another one -/
  nan : x.isNaN = true → y.isNaN = true

namespace Single

variable {x : Single} {settle : Nat → Nat → Nat}

/-- A way to settle on an integer rounds in a direction when it does so for the integer part and
the rest, under the sign. -/
theorem rounded_toIntegral {direction : ℚ → ℤ → Prop}
    (h : ∀ whole rest, settle whole rest = whole ∨ rest ≠ 0 ∧ settle whole rest = whole + 1)
    (hdirection : direction x.value (if x.negative then
      -(settle (x.units / unitsPerOne) (x.units % unitsPerOne) : ℕ)
      else (settle (x.units / unitsPerOne) (x.units % unitsPerOne) : ℕ))) :
    Rounded direction x (x.toIntegral settle) := by
  refine ⟨fun hx => ?_, fun hx => ?_, fun hx => ?_⟩
  · obtain ⟨hfinite, hsign, hunits⟩ := toIntegral_exact settle hx (h _ _)
    refine ⟨hfinite, hsign, _, hdirection, ?_⟩
    rw [value, hsign, absolute_eq_units, hunits, Nat.cast_mul,
      mul_div_cancel_right₀ _ unitsPerOne_cast_pos.ne']
    split <;> simp
  · exact toIntegral_of_not_isFinite _ (isFinite_of_isInfinite hx)
  · rwa [toIntegral_of_not_isFinite _ (isFinite_of_isNaN hx)]

/-! ## The directions -/

theorem value_eq_signed (x : Single) : x.value =
    if x.negative then -(((x.units / unitsPerOne : ℕ) : ℚ)
        + ((x.units % unitsPerOne : ℕ) : ℚ) / unitsPerOne)
    else ((x.units / unitsPerOne : ℕ) : ℚ) + ((x.units % unitsPerOne : ℕ) : ℚ) / unitsPerOne := by
  rw [value, absolute_eq_whole_add_rest]

theorem rest_eq_zero_iff (x : Single) :
    ((x.units % unitsPerOne : ℕ) : ℚ) / unitsPerOne = 0 ↔ x.units % unitsPerOne = 0 := by
  rw [div_eq_zero_iff, or_iff_left unitsPerOne_cast_pos.ne', Nat.cast_eq_zero]

theorem rounded_trunc (x : Single) : Rounded (fun q k => k = towardZero q) x x.trunc := by
  obtain ⟨hlow, hhigh⟩ := rest_bounds (n := x.units) unitsPerOne_pos
  refine rounded_toIntegral (fun _ _ => .inl rfl) ?_
  rw [value_eq_signed, towardZero_signed hlow hhigh]

theorem rounded_floor (x : Single) : Rounded (fun q k => k = ⌊q⌋) x x.floor := by
  obtain ⟨hlow, hhigh⟩ := rest_bounds (n := x.units) unitsPerOne_pos
  refine rounded_toIntegral (fun whole rest => ?_) ?_
  · cases x.negative <;> simp [Decidable.em]
  · rw [value_eq_signed, floor_signed hlow hhigh]
    simp only [rest_eq_zero_iff]
    cases x.negative <;> simp

theorem rounded_ceil (x : Single) : Rounded (fun q k => k = ⌈q⌉) x x.ceil := by
  obtain ⟨hlow, hhigh⟩ := rest_bounds (n := x.units) unitsPerOne_pos
  refine rounded_toIntegral (fun whole rest => ?_) ?_
  · cases x.negative <;> simp [Decidable.em]
  · rw [value_eq_signed, ceil_signed hlow hhigh]
    simp only [rest_eq_zero_iff]
    cases x.negative <;> simp

/-- A way to settle on the nearest integer is right on both sides of zero. -/
theorem rounded_of_nearest {prefers : ℤ → ℤ → Prop}
    (hp : ∀ k j, prefers k j → prefers (-k) (-j))
    (h : ∀ whole rest, settle whole rest = whole ∨ rest ≠ 0 ∧ settle whole rest = whole + 1)
    (hnearest : Nearest prefers ((x.units : ℚ) / unitsPerOne)
      (settle (x.units / unitsPerOne) (x.units % unitsPerOne) : ℕ)) :
    Rounded (Nearest prefers) x (x.toIntegral settle) := by
  refine rounded_toIntegral h ?_
  rw [value, absolute_eq_units]
  cases x.negative
  · exact hnearest
  · exact hnearest.neg hp

theorem rounded_round (x : Single) : Rounded IsNearestAway x x.round := by
  refine rounded_of_nearest (fun k j h => ?_) (fun whole rest => ?_)
    (quotient_isNearestAway unitsPerOne_pos)
  · rwa [abs_neg, abs_neg]
  · have hpos := unitsPerOne_pos
    split
    case isTrue h => exact .inr ⟨by omega, rfl⟩
    case isFalse => exact .inl rfl

end Single

/-- Which NaN there is does not matter. -/
theorem Rounded.of_follows {direction : ℚ → ℤ → Prop} {f g : Single → Single} {x : Single}
    (h : Rounded direction x (g x)) (hf : Follows f g) : Rounded direction x (f x) := by
  refine ⟨fun hx => ?_, fun hx => ?_, fun hx => hf.isNaN (h.nan hx)⟩
  · rw [hf.eq (Single.isNaN_of_isFinite (h.finite hx).1)]
    exact h.finite hx
  · have hself := h.infinite hx
    rw [hf.eq (by rw [hself]; exact Single.isNaN_of_isInfinite hx), hself]

/-! ## The four-lane unit -/

namespace Reg

/-- The four-lane unit has no rounding to integers of its own, and yet truncation, floor, ceiling
and rounding are exact on every pattern: zeros and subnormal values, the neighbours of one half and
of `2^23`, values beyond the signed words, infinities and NaN. -/
theorem rounding_exact (lib : MathLibrary) (a : Reg .quad .float) (i : Fin Backend.quad.lanes) :
    Rounded (fun q k => k = towardZero q) (a.lane i) ((trunc lib a).lane i) ∧
    Rounded (fun q k => k = ⌊q⌋) (a.lane i) ((floor lib a).lane i) ∧
    Rounded (fun q k => k = ⌈q⌉) (a.lane i) ((ceil lib a).lane i) ∧
    Rounded IsNearestAway (a.lane i) ((round lib a).lane i) := by
  rw [lane_trunc, lane_floor, lane_ceil, lane_round]
  exact ⟨Single.rounded_trunc _,
    (Single.rounded_floor _).of_follows (Lane.follows_quieted Single.isNaN_floor),
    (Single.rounded_ceil _).of_follows (Lane.follows_quieted Single.isNaN_ceil),
    Single.rounded_round _⟩

/-- The value below one half, `-(2^23 - 3/2)`, the negative value next to zero, and a NaN. Rounding
does not carry the first one up, the floor of the second is farther out, and the third leaves a
negative zero in two directions. -/
theorem rounding_exact_boundaries :
    let a : Reg .quad .float := #v[0x3effffff, 0xcafffffd, 0x80000001, 0x7fc00001]
    let lib := MathLibrary.double
    (∀ i, i.val < 3 → Single.isFinite (a.lane i) = true) ∧
      (∃ k : ℤ, k = ⌊Single.value (a.lane ⟨1, by decide⟩)⌋ ∧
        Single.value ((floor lib a).lane ⟨1, by decide⟩) = k) ∧
      ((floor lib a).toList.take 3).map Single.bits = [0, 0xcafffffe, 0xbf800000] ∧
      ((ceil lib a).toList.take 3).map Single.bits = [0x3f800000, 0xcafffffc, 0x80000000] ∧
      ((round lib a).toList.take 3).map Single.bits = [0, 0xcafffffe, 0x80000000] ∧
      Single.isNaN (a.lane ⟨3, by decide⟩) = true ∧
      Single.isNaN ((floor lib a).lane ⟨3, by decide⟩) = true ∧
      Single.isNaN ((ceil lib a).lane ⟨3, by decide⟩) = true ∧
      Single.isNaN ((round lib a).lane ⟨3, by decide⟩) = true := by
  intro a lib
  obtain ⟨-, hfloor, -, -⟩ := rounding_exact lib a ⟨1, by decide⟩
  obtain ⟨-, -, hvalue⟩ := hfloor.finite (by decide +kernel)
  have hnan : Single.isNaN (a.lane ⟨3, by decide⟩) = true := by decide +kernel
  obtain ⟨-, hfloor, hceil, hround⟩ := rounding_exact lib a ⟨3, by decide⟩
  exact ⟨by decide +kernel, hvalue, by decide +kernel, by decide +kernel, by decide +kernel, hnan,
    hfloor.nan hnan, hceil.nan hnan, hround.nan hnan⟩

end Reg

end Wavefront
