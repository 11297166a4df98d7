import Wavefront.Single.Double
import Wavefront.Proofs.RegisterOps

/-!
# Lawful libraries

Where the scalar backend calls the library, the quad backend has instructions of its own. Of a
library that keeps its laws both come to the same: the function that is named outright in `Single`,
except that nothing is known of which NaN there is. So `MathLibrary.Exact.floorLane` and its like
are all that later proofs know of the library, and for numbers they are equations.

The laws can be met: `MathLibrary.lawful_double`.
-/

namespace Wavefront

variable {f g : Single → Single} {x : Single}

namespace Follows

theorem refl (f : Single → Single) : Follows f f := fun _ => .inl rfl

/-- A result that is a number is the same one. -/
theorem eq (h : Follows f g) (hx : (g x).isNaN = false) : f x = g x :=
  (h x).resolve_right fun hnan => Bool.false_ne_true (hx.symm.trans hnan.2)

theorem isNaN (h : Follows f g) (hx : (g x).isNaN = true) : (f x).isNaN = true := by
  rcases h x with heq | hnan
  · rwa [heq]
  · exact hnan.1

end Follows

namespace Single

theorem isNaN_sqrt (hx : x.isNaN = true) : x.sqrt.isNaN = true := by
  rw [sqrt, if_pos hx]
  exact isNaN_quiet hx

/-- An integral value of a number is a number, and of NaN there is none. -/
@[simp] theorem isNaN_toIntegral (settle : Nat → Nat → Nat) (x : Single) :
    (x.toIntegral settle).isNaN = x.isNaN := by
  cases hx : x.isFinite
  · rw [toIntegral_of_not_isFinite _ hx]
  · rw [toIntegral, if_pos hx, isNaN_ofRatio, isNaN_of_isFinite hx]

@[simp] theorem isNaN_trunc (x : Single) : x.trunc.isNaN = x.isNaN := isNaN_toIntegral _ x

@[simp] theorem isNaN_floor (x : Single) : x.floor.isNaN = x.isNaN := isNaN_toIntegral _ x

@[simp] theorem isNaN_ceil (x : Single) : x.ceil.isNaN = x.isNaN := isNaN_toIntegral _ x

@[simp] theorem isNaN_round (x : Single) : x.round.isNaN = x.isNaN := isNaN_toIntegral _ x

end Single

namespace Lane

/-- Instructions that follow the function too leave no difference between the backends. -/
theorem follows_byBackend {library unit : Single → Single} (hlibrary : Follows library g)
    (hunit : Follows unit g) (B : Backend) : Follows (byBackend library unit B) g := by
  cases B with
  | scalar => exact hlibrary
  | quad => exact hunit

/-- A NaN that is made quiet is still one. -/
theorem follows_quieted (hg : ∀ x, (g x).isNaN = x.isNaN) :
    Follows (fun x => if x.isNaN then x.quiet else g x) g := by
  intro x
  cases hx : x.isNaN
  · exact .inl (if_neg (ne_true_of_eq_false hx))
  · exact .inr ⟨(congrArg Single.isNaN (if_pos hx)).trans (Single.isNaN_quiet hx), (hg x).trans hx⟩

end Lane

namespace MathLibrary

variable {lib : MathLibrary}

namespace Exact

variable (h : lib.Exact) (B : Backend)
include h

theorem absLane (x : Single) : Lane.absLane lib B x = x.abs := by
  cases B with
  | scalar => exact h.abs x
  | quad => rfl

theorem truncLane : Follows (Lane.truncLane lib B) Single.trunc :=
  Lane.follows_byBackend h.trunc (.refl _) B

theorem roundLane : Follows (Lane.roundLane lib B) Single.round :=
  Lane.follows_byBackend h.round (.refl _) B

theorem floorLane : Follows (Lane.floorLane lib B) Single.floor :=
  Lane.follows_byBackend h.floor (Lane.follows_quieted Single.isNaN_floor) B

theorem ceilLane : Follows (Lane.ceilLane lib B) Single.ceil :=
  Lane.follows_byBackend h.ceil (Lane.follows_quieted Single.isNaN_ceil) B

theorem truncLane_eq (hx : x.isNaN = false) : Lane.truncLane lib B x = x.trunc :=
  (h.truncLane B).eq ((Single.isNaN_trunc x).trans hx)

theorem roundLane_eq (hx : x.isNaN = false) : Lane.roundLane lib B x = x.round :=
  (h.roundLane B).eq ((Single.isNaN_round x).trans hx)

theorem floorLane_eq (hx : x.isNaN = false) : Lane.floorLane lib B x = x.floor :=
  (h.floorLane B).eq ((Single.isNaN_floor x).trans hx)

end Exact

theorem Lawful.sqrtLane (h : lib.Lawful) (B : Backend) :
    Follows (Lane.sqrtLane lib B) Single.sqrt := Lane.follows_byBackend h.sqrt (.refl _) B

/-- The library that goes by way of double precision keeps the laws. -/
theorem lawful_double : MathLibrary.double.Lawful where
  abs _ := rfl
  floor := .refl _
  ceil := .refl _
  trunc := .refl _
  round := .refl _
  sqrt := .refl _
  elementary f x hx := (congrArg Single.isNaN (if_pos hx)).trans (Single.isNaN_quiet hx)
  atan2 y x h := Single.isNaN_ite_passOn h _
  pow_zero x y hy := if_pos (by rw [decide_eq_true hy, Bool.true_or])
  one_pow y := if_pos (by rw [beq_self_eq_true, Bool.or_true])
  pow x y h hx hy := by
    have hne : ¬(decide (y.magnitude = 0) || x == Single.one) = true := by
      rw [decide_eq_false hy, beq_eq_false_iff_ne.2 hx]
      decide
    exact (congrArg Single.isNaN (if_neg hne)).trans (Single.isNaN_ite_passOn h _)

end MathLibrary

end Wavefront
