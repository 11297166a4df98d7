import Wavefront.Proofs.BatchOps
import Wavefront.Proofs.WordNumbers

/-!
# Products of words

The four-lane unit multiplies unsigned words only. Nothing of these products is lost
(`toNat_product`), and of each the low word is kept, in the lane of its factors
(`toNat_get_mulLow`).

A word read as signed is not the same number as the word read as unsigned, and products of the one
are not products of the other. But all of them agree up to multiples of `2 ^ 32`, which the low word
does not have. So the same word stands for the product of signed and of unsigned words, each wrapped
into its own range (`toInt_eq_wrapped_product`).

Main statement: `products_wrap`.
-/

namespace Wavefront

namespace Lane

variable {s : Signedness} {x y w : Word}

/-! ## Wrapped numbers -/

/-- The number between the bounds of words that differs from `z` by a multiple of `2 ^ 32`. -/
def wrapped : Signedness → ℤ → ℤ
  | .signed, z => z.bmod (2 ^ 32)
  | .unsigned, z => z % 2 ^ 32

/-- It is the number of the word that keeps the low bits. -/
theorem toInt_ofInt (s : Signedness) (z : ℤ) : toInt s (BitVec.ofInt 32 z) = wrapped s z := by
  cases s with
  | signed => exact BitVec.toInt_ofInt z
  | unsigned =>
    rw [toInt, BitVec.toNat_ofInt]
    exact Int.toNat_of_nonneg (Int.emod_nonneg z (by decide))

theorem wrapped_modEq (s : Signedness) (z : ℤ) : wrapped s z ≡ z [ZMOD 2 ^ 32] := by
  cases s with
  | signed => exact Int.bmod_emod
  | unsigned => exact Int.mod_modEq z _

/-- A word stands for a wrapped number exactly if it agrees with the number up to wrapping. -/
theorem toInt_eq_wrapped {z : ℤ} : toInt s w = wrapped s z ↔ toInt s w ≡ z [ZMOD 2 ^ 32] := by
  constructor
  · intro h
    rw [h]
    exact wrapped_modEq s z
  · intro h
    rw [← toInt_ofInt, toInt_inj]
    refine eq_of_toInt_modEq (s := s) (h.trans ?_)
    rw [toInt_ofInt]
    exact (wrapped_modEq s z).symm

/-- The low word of the unsigned product stands for the wrapped product in both readings. -/
theorem toInt_eq_wrapped_product (s : Signedness) (h : w.toNat = x.toNat * y.toNat % 2 ^ 32) :
    toInt s w = wrapped s (toInt s x * toInt s y) := by
  refine toInt_eq_wrapped.2 ?_
  calc toInt s w
      ≡ (x.toNat * y.toNat % 2 ^ 32 : ℕ) [ZMOD 2 ^ 32] := by rw [← h]; exact toInt_modEq s w
    _ ≡ x.toNat * y.toNat [ZMOD 2 ^ 32] := by
      rw [Int.natCast_emod, Int.natCast_mul]
      exact Int.mod_modEq _ _
    _ ≡ toInt s x * toInt s y [ZMOD 2 ^ 32] := ((toInt_modEq s x).mul (toInt_modEq s y)).symm

end Lane

/-! ## Full products -/

namespace Quad

/-- A product of two words fits in 64 bits. -/
theorem toNat_product (x y : Word) : (product x y).toNat = x.toNat * y.toNat := by
  have hfits : x.toNat * y.toNat < 2 ^ 32 * 2 ^ 32 := Nat.mul_lt_mul'' x.isLt y.isLt
  rw [product, BitVec.toNat_mul, BitVec.toNat_setWidth_of_le (by decide),
    BitVec.toNat_setWidth_of_le (by decide)]
  exact Nat.mod_eq_of_lt hfits

theorem toNat_get_mulLow (a b : Quad) (i : Fin 4) :
    ((mulLow a b).get i).toNat = (a.get i).toNat * (b.get i).toNat % 2 ^ 32 := by
  rw [get_mulLow_eq_setWidth, BitVec.toNat_setWidth, toNat_product]

end Quad

/-! ## Batches and registers -/

namespace Batch

variable {B : Backend} {s : Signedness} {n : ℕ}

/-- On every unit the lanes of a product of integer batches are the wrapped products of the
lanes. -/
theorem toInt_lane_times (a b : Batch B (.number (.integer s)) n) (i : Fin (width B n)) :
    Lane.toInt s ((a * b).lane i)
      = Lane.wrapped s (Lane.toInt s (a.lane i) * Lane.toInt s (b.lane i)) := by
  rw [lane_times]
  exact Lane.toInt_eq_wrapped_product s (BitVec.toNat_mul (a.lane i) (b.lane i))

/-- It does not matter for a product whether its factors are signed: a cast may be done before. -/
theorem cast_times (s' : Signedness) (a b : Batch B (.number (.integer s)) n) :
    (a * b).cast (.number (.integer s'))
      = a.cast (.number (.integer s')) * b.cast (.number (.integer s')) := by
  refine ext_lane fun i => ?_
  rw [lane_times, lane_cast, lane_cast, lane_cast, lane_times]
  rfl

end Batch

/-- The four-lane product leaves in each lane the low 32 bits of the unsigned product of the same
lanes. It is the product of registers of integers, signed or unsigned, and what it leaves stands for
the product wrapped into the range of either, as the product of single lanes does. -/
theorem products_wrap (mode : Denormals) (a b : Quad) (i : Fin 4) :
    ((Quad.mulLow a b).get i).toNat = (a.get i).toNat * (b.get i).toNat % 2 ^ 32 ∧
    ∀ s : Signedness,
      Reg.mul mode (B := .quad) (t := .integer s) a b = Quad.mulLow a b ∧
      Lane.toInt s ((Quad.mulLow a b).get i)
        = Lane.wrapped s (Lane.toInt s (a.get i) * Lane.toInt s (b.get i)) ∧
      Reg.mul mode (B := .scalar) (t := .integer s) (a.get i) (b.get i)
        = (Quad.mulLow a b).get i := by
  have hlow := Quad.toNat_get_mulLow a b i
  refine ⟨hlow, fun s => ⟨rfl, Lane.toInt_eq_wrapped_product s hlow, ?_⟩⟩
  exact (Quad.get_mulLow a b i).symm

/-- Products with a negative factor, past the greatest signed word, and past all 32 bits. -/
example :
    Quad.mulLow #v[3, -7, 0x7fffffff, 65537] #v[5, 9, 2, 65537] = #v[15, -63, -2, 131073] := by
  decide

end Wavefront
