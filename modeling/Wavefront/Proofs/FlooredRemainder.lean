import Wavefront.Proofs.BatchOps
import Wavefront.Proofs.FaithfulRounding
import Wavefront.Proofs.RoundingDirections

/-!
# The floored remainder

The remainder is the value less the divisor times the floor of the quotient, and each of the three
operations rounds. In exact arithmetic what is left has the sign of the divisor, because the floor
is not above the quotient. Here the floor is that of the rounded quotient.

Two of the roundings do no harm: a product is rounded without passing the value (`faithful_mul`),
and a difference keeps its sign (`signOfDifference_sub`). So all depends on the first one. It leaves
the floor on the right side unless it raises the quotient to an integer (`raised_iff`), and then the
floor is one too large: what is left has the other sign, or the product is rounded to the value and
nothing is left.

Main statement: `modulo_takes_sign_iff`.
-/

namespace Wavefront

/-- `r` is zero or has the sign of `y`. -/
def TakesSign (r y : Single) : Prop :=
  r.isNaN = false ∧ (r.magnitude = 0 ∨ r.negative = y.negative)

instance (r y : Single) : Decidable (TakesSign r y) :=
  inferInstanceAs (Decidable (_ ∧ _))

/-- An exact quotient that is rounded up, and to an integer. -/
def RaisedToInteger (q : ℚ) (y : Single) : Prop := ∃ k : ℤ, y.value = k ∧ q < k

namespace Single

variable {q : ℚ} {x y p : Single}

/-- A quotient that is rounded past its floor is raised to an integer, and no other one is. -/
theorem raised_iff (hy : y.isFinite = true) (h : Faithful q y) :
    RaisedToInteger q y ↔ q < ⌊y.value⌋ := by
  constructor
  · rintro ⟨k, hk, hlt⟩
    rwa [hk, Int.floor_intCast]
  · intro hlt
    obtain ⟨hfinite, -, k, rfl, hk⟩ := (rounded_floor y).finite hy
    -- the floor is a value above the quotient, so the quotient is not rounded beyond it
    refine ⟨⌊y.value⌋, le_antisymm ?_ (Int.floor_le _), hlt⟩
    rw [← hk] at hlt ⊢
    exact h.ge_of_ge _ hfinite hlt.le

/-- On the right side of the value the product leaves the sign of the divisor. -/
theorem takesSign_of_le {f : ℚ} (hx : x.isFinite = true) (hy0 : y.value ≠ 0)
    (hp : p.isNaN = false) (h : Faithful (y.value * f) p) (hf : f ≤ x.value / y.value) :
    TakesSign (sub .keep x p) y := by
  obtain ⟨hnumber, hzero, hnegative⟩ := signOfDifference_sub hx hp
  refine ⟨hnumber, or_iff_not_imp_left.2 fun hne => ?_⟩
  rw [hnegative hne, negative_eq hy0]
  rcases lt_or_gt_of_ne hy0 with hneg | hpos
  · have hle := h.le_of_le x hx (by rwa [le_div_iff_of_neg hneg, mul_comm] at hf)
    have hlt := lt_of_le_of_ne hle (mt hzero.2 hne)
    rw [decide_eq_true hlt, decide_eq_true hneg]
  · have hle := h.ge_of_ge x hx (by rwa [le_div_iff₀ hpos, mul_comm] at hf)
    rw [decide_eq_false hle.not_gt, decide_eq_false hpos.not_gt]

/-- Beyond the value it leaves the other one, or nothing. -/
theorem not_takesSign_of_lt {f : ℚ} (hx : x.isFinite = true) (hy0 : y.value ≠ 0)
    (hp : p.isNaN = false) (h : Faithful (y.value * f) p) (hf : x.value / y.value < f)
    (hne : (sub .keep x p).magnitude ≠ 0) : ¬TakesSign (sub .keep x p) y := by
  obtain ⟨-, hzero, hnegative⟩ := signOfDifference_sub hx hp
  rintro ⟨-, h0 | hsign⟩
  · exact hne h0
  rw [hnegative hne, negative_eq hy0, decide_eq_decide] at hsign
  rcases lt_or_gt_of_ne hy0 with hneg | hpos
  · have hle := h.ge_of_ge x hx (by rw [div_lt_iff_of_neg hneg, mul_comm] at hf; exact hf.le)
    exact hle.not_gt (hsign.2 hneg)
  · have hle := h.le_of_le x hx (by rw [div_lt_iff₀ hpos, mul_comm] at hf; exact hf.le)
    exact hpos.not_gt (hsign.1 (lt_of_le_of_ne hle (mt hzero.2 hne)))

/-- The floored remainder takes the sign of the divisor unless the quotient is raised to an integer
and something is left. -/
theorem takesSign_iff (hx : x.isFinite = true) (hy : y.isFinite = true) (hy0 : y.value ≠ 0)
    (hq : (div .keep x y).isFinite = true) :
    let r := sub .keep x (mul .keep y (div .keep x y).floor)
    TakesSign r y ↔ r.magnitude = 0 ∨ ¬RaisedToInteger (x.value / y.value) (div .keep x y) := by
  intro r
  obtain ⟨hfloor, -, k, rfl, hk⟩ := (rounded_floor (div .keep x y)).finite hq
  have hp : (mul .keep y (div .keep x y).floor).isNaN = false := by
    rw [mul_keep hy hfloor, isNaN_ofRatio]
  have hproduct := faithful_mul hy hfloor
  rw [hk] at hproduct
  rw [raised_iff hq (faithful_div hx hy hy0), not_lt]
  constructor
  · intro h
    by_contra hnot
    obtain ⟨hne, hlt⟩ := not_or.1 hnot
    exact not_takesSign_of_lt hx hy0 hp hproduct (not_le.1 hlt) hne h
  · rintro (h0 | hle)
    · exact ⟨(signOfDifference_sub hx hp).number, .inl h0⟩
    · exact takesSign_of_le hx hy0 hp hproduct hle

end Single

namespace Batch

variable {B : Backend} {n : Nat} {lib : MathLibrary}

theorem lane_modulo (x y : Batch B .float n) (i : Fin (width B n)) :
    (x.modulo lib y).lane i = Single.sub .keep (x.lane i) (Single.mul .keep (y.lane i)
      (Lane.floorLane lib B (Single.div .keep (x.lane i) (y.lane i)))) := by
  simp [modulo, Lane.sub, Lane.mul]

/-- Where the quotient of finite lanes is finite, the floored remainder takes the sign of the
divisor exactly if it is zero or the quotient is not raised to an integer. The floor of the library
is taken to be exact. -/
theorem modulo_takes_sign_iff (hlib : lib.Exact) (x y : Batch B .float n) (i : Fin (width B n))
    (hx : Single.isFinite (x.lane i) = true) (hy : Single.isFinite (y.lane i) = true)
    (hy0 : Single.value (y.lane i) ≠ 0) (hq : Single.isFinite ((x / y).lane i) = true) :
    TakesSign ((x.modulo lib y).lane i) (y.lane i) ↔
      Single.magnitude ((x.modulo lib y).lane i) = 0 ∨
        ¬RaisedToInteger (Single.value (x.lane i) / Single.value (y.lane i)) ((x / y).lane i) := by
  rw [lane_over] at hq ⊢
  rw [lane_modulo, hlib.floorLane_eq B (Single.isNaN_of_isFinite hq)]
  exact Single.takesSign_iff hx hy hy0 hq

/-- The nearest floats to nine tenths and one tenth, of both signs; to seven tenths; and `-11/2` by
`2`. Nine times a tenth is rounded beyond nine tenths, seven times a tenth to seven tenths. -/
theorem modulo_takes_sign_iff_tenths :
    let x : Batch .quad .float 1 := ⟨#v[#v[0x3f666666, 0xbf666666, 0x3f333333, 0xc0b00000]]⟩
    let y : Batch .quad .float 1 := ⟨#v[#v[0x3dcccccd, 0xbdcccccd, 0x3dcccccd, 0x40000000]]⟩
    let lib := MathLibrary.double
    lib.Exact ∧
      (∀ i, Single.isFinite (x.lane i) = true ∧ Single.isFinite (y.lane i) = true ∧
        Single.value (y.lane i) ≠ 0 ∧ Single.isFinite ((x / y).lane i) = true ∧
        (TakesSign ((x.modulo lib y).lane i) (y.lane i) ↔
          Single.magnitude ((x.modulo lib y).lane i) = 0 ∨
            ¬RaisedToInteger (Single.value (x.lane i) / Single.value (y.lane i))
              ((x / y).lane i))) ∧
      (x / y).toList.map Single.bits = [0x41100000, 0x41100000, 0x40e00000, 0xc0300000] ∧
      (x.modulo lib y).toList.map Single.bits = [0xb3800000, 0x33800000, 0, 0x3f000000] := by
  intro x y lib
  have hlib : lib.Exact := MathLibrary.lawful_double.toExact
  have hx : ∀ i, Single.isFinite (x.lane i) = true := by decide +kernel
  have hy : ∀ i, Single.isFinite (y.lane i) = true := by decide +kernel
  have hm : ∀ i, Single.magnitude (y.lane i) ≠ 0 := by decide +kernel
  have hy0 : ∀ i, Single.value (y.lane i) ≠ 0 := fun i => mt Single.value_eq_zero_iff.1 (hm i)
  have hq : ∀ i, Single.isFinite ((x / y).lane i) = true := by decide +kernel
  exact ⟨hlib, fun i => ⟨hx i, hy i, hy0 i, hq i,
    modulo_takes_sign_iff hlib x y i (hx i) (hy i) (hy0 i) (hq i)⟩, by decide +kernel,
    by decide +kernel⟩

/-- So the remainder of nine tenths by one tenth does not have the sign of its divisor, under
neither sign of both. -/
theorem modulo_against_sign :
    let x : Batch .quad .float 1 := ⟨#v[#v[0x3f666666, 0xbf666666, 0x3f666666, 0xbf666666]]⟩
    let y : Batch .quad .float 1 := ⟨#v[#v[0x3dcccccd, 0xbdcccccd, 0x3dcccccd, 0xbdcccccd]]⟩
    ∀ i, Single.isFinite (x.lane i) = true ∧ Single.isFinite (y.lane i) = true ∧
      Single.value (y.lane i) ≠ 0 ∧ Single.isFinite ((x / y).lane i) = true ∧
      ¬TakesSign ((x.modulo .double y).lane i) (y.lane i) := by
  intro x y i
  have hm : ∀ i, Single.magnitude (y.lane i) ≠ 0 := by decide +kernel
  refine ⟨?_, ?_, mt Single.value_eq_zero_iff.1 (hm i), ?_, ?_⟩ <;> revert i <;> decide +kernel

end Batch

end Wavefront
