import Mathlib.Data.Rat.Floor
import Wavefront.Proofs.BatchOps
import Wavefront.Proofs.WordNumbers

/-!
# Shifts of words

The backends look at a count before they shift by it: one replaces the shift by zero, one shifts by
31 instead, and the four-lane unit has a rule of its own for counts that are too long. Read as
numbers, nothing of this is left. For every count `k`, a shift to the left multiplies by `2 ^ k`, up
to wrapping (`toInt_shiftLeft`), and a shift to the right divides by `2 ^ k` and takes the floor
(`toInt_shiftRight`). What two shifts make together, and what is left after one that is too long,
follows from the two.

Main statement: `shift_by_any_count`.
-/

namespace Wavefront

/-- A divisor that is larger than a number leaves its sign only. -/
theorem ediv_of_small {a d : ℤ} (hlow : -d ≤ a) (hhigh : a < d) :
    a / d = if a < 0 then -1 else 0 := by
  split
  case isTrue h => exact Int.ediv_eq_neg_one_of_neg_of_le h (by omega)
  case isFalse h => exact Int.ediv_eq_zero_of_lt (by omega) hhigh

namespace Lane

variable {s : Signedness} {x k l : Word}

/-! ## Counts that are too long -/

/-- Counts past the width leave nothing. -/
theorem shiftLeft_of_le (h : 32 ≤ k.toNat) (x : Word) : shiftLeft x k = 0 := if_neg (by omega)

/-- A quotient by so large a power of two is a sign. -/
theorem toInt_ediv_two_pow (s : Signedness) (x : Word) {j : ℕ}
    (hj : 32 ≤ j ∨ s = .signed ∧ 31 ≤ j) :
    toInt s x / 2 ^ j = if toInt s x < 0 then -1 else 0 := by
  have hlow := neg_two_pow_le_toInt s x
  have hhigh : toInt s x < 2 ^ j := by
    rcases hj with hj | ⟨rfl, hj⟩
    · exact lt_of_lt_of_le (toInt_lt_two_pow s x) (pow_le_pow_right₀ (by simp) hj)
    · exact lt_of_lt_of_le BitVec.toInt_lt (pow_le_pow_right₀ (by simp) hj)
  have h31 : (2 : ℤ) ^ 31 ≤ 2 ^ j := pow_le_pow_right₀ (by simp) (by omega)
  exact ediv_of_small (by omega) hhigh

/-! ## Shifts as arithmetic -/

/-- A shift to the left multiplies, up to wrapping. -/
theorem toInt_shiftLeft (s : Signedness) (x k : Word) :
    toInt s (shiftLeft x k) ≡ toInt s x * 2 ^ k.toNat [ZMOD 2 ^ 32] := by
  have hshift : shiftLeft x k = x <<< k.toNat := by
    rw [shiftLeft]
    split
    case isTrue => rfl
    case isFalse h => exact (BitVec.shiftLeft_eq_zero (by omega)).symm
  calc toInt s (shiftLeft x k)
      ≡ (x <<< k.toNat).toNat [ZMOD 2 ^ 32] := by rw [hshift]; exact toInt_modEq s _
    _ ≡ (x.toNat * 2 ^ k.toNat : ℕ) [ZMOD 2 ^ 32] := by
        rw [BitVec.toNat_shiftLeft, Nat.shiftLeft_eq]
        exact Int.natCast_modEq_iff.2 (Nat.mod_modEq _ _)
    _ ≡ toInt s x * 2 ^ k.toNat [ZMOD 2 ^ 32] := by
        rw [Nat.cast_mul, Nat.cast_pow]
        exact (toInt_modEq s x).symm.mul_right _

/-- A shift to the right divides and takes the floor. -/
theorem toInt_shiftRight (s : Signedness) (x k : Word) :
    toInt s (shiftRight s x k) = toInt s x / 2 ^ k.toNat := by
  cases s with
  | signed =>
    have hshift : toInt .signed (shiftRight .signed x k) = x.toInt / 2 ^ Nat.min k.toNat 31 := by
      rw [toInt, shiftRight, BitVec.toInt_sshiftRight, Int.shiftRight_eq_div_pow]
      norm_cast
    rw [hshift]
    by_cases h : k.toNat ≤ 31
    · rw [show Nat.min k.toNat 31 = k.toNat from Nat.min_eq_left h]
      rfl
    · rw [show Nat.min k.toNat 31 = 31 from Nat.min_eq_right (by omega)]
      -- both counts leave the sign
      exact (toInt_ediv_two_pow .signed x (.inr ⟨rfl, le_rfl⟩)).trans
        (toInt_ediv_two_pow .signed x (.inr ⟨rfl, by omega⟩)).symm
  | unsigned =>
    have hshift : shiftRight .unsigned x k = x >>> k.toNat := by
      rw [shiftRight]
      split
      case isTrue => rfl
      case isFalse h => exact (BitVec.ushiftRight_eq_zero (by omega)).symm
    rw [hshift, toInt, toInt, BitVec.toNat_ushiftRight, Nat.shiftRight_eq_div_pow]
    push_cast
    rfl

theorem toInt_shiftRight_eq_floor (s : Signedness) (x k : Word) :
    toInt s (shiftRight s x k) = ⌊(toInt s x : ℚ) / 2 ^ k.toNat⌋ := by
  have hfloor := Rat.floor_intCast_div_natCast (toInt s x) (2 ^ k.toNat)
  rw [Nat.cast_pow, Nat.cast_pow] at hfloor
  rw [toInt_shiftRight]
  exact hfloor.symm

/-! ## One shift after another -/

/-- Powers of two multiply where the sum of the counts does not wrap. -/
theorem two_pow_add (h : k.toNat + l.toNat < 2 ^ 32) :
    (2 : ℤ) ^ (k + l).toNat = 2 ^ k.toNat * 2 ^ l.toNat := by
  rw [BitVec.toNat_add_of_lt h, pow_add]

theorem shiftLeft_shiftLeft (x : Word) (h : k.toNat + l.toNat < 2 ^ 32) :
    shiftLeft (shiftLeft x k) l = shiftLeft x (k + l) := by
  refine eq_of_toInt_modEq (s := .unsigned) ?_
  calc toInt .unsigned (shiftLeft (shiftLeft x k) l)
      ≡ toInt .unsigned (shiftLeft x k) * 2 ^ l.toNat [ZMOD 2 ^ 32] := toInt_shiftLeft _ _ l
    _ ≡ toInt .unsigned x * 2 ^ k.toNat * 2 ^ l.toNat [ZMOD 2 ^ 32] :=
        (toInt_shiftLeft _ x k).mul_right _
    _ = toInt .unsigned x * 2 ^ (k + l).toNat := by rw [two_pow_add h, mul_assoc]
    _ ≡ toInt .unsigned (shiftLeft x (k + l)) [ZMOD 2 ^ 32] := (toInt_shiftLeft _ x (k + l)).symm

theorem shiftRight_shiftRight (s : Signedness) (x : Word) (h : k.toNat + l.toNat < 2 ^ 32) :
    shiftRight s (shiftRight s x k) l = shiftRight s x (k + l) := by
  rw [← toInt_inj (s := s)]
  have hpos : (0 : ℤ) ≤ 2 ^ k.toNat := by positivity
  rw [toInt_shiftRight, toInt_shiftRight, toInt_shiftRight, Int.ediv_ediv_of_nonneg hpos,
    two_pow_add h]

end Lane

namespace Batch

variable {B : Backend} {n : Nat} {s : Signedness}

/-- A shift to the left by any count multiplies every lane by that power of two, modulo `2 ^ 32`. A
shift to the right takes the floor of the quotient by it. So two shifts in the same direction are
one by the sum of the counts, if that is a count, and a count of at least 32 leaves zero, or -1 of a
negative lane that is shifted to the right. -/
theorem shift_by_any_count (a : Batch B (.number (.integer s)) n) (k : Word) :
    (∀ i, Lane.toInt s ((a.shiftLeft k).lane i)
      ≡ Lane.toInt s (a.lane i) * 2 ^ k.toNat [ZMOD 2 ^ 32]) ∧
    (∀ i, Lane.toInt s ((a.shiftRight k).lane i)
      = ⌊(Lane.toInt s (a.lane i) : ℚ) / 2 ^ k.toNat⌋) ∧
    (∀ l : Word, k.toNat + l.toNat < 2 ^ 32 →
      (a.shiftLeft k).shiftLeft l = a.shiftLeft (k + l) ∧
        (a.shiftRight k).shiftRight l = a.shiftRight (k + l)) ∧
    (32 ≤ k.toNat → ∀ i, Lane.toInt s ((a.shiftLeft k).lane i) = 0 ∧
      Lane.toInt s ((a.shiftRight k).lane i) = if Lane.toInt s (a.lane i) < 0 then -1 else 0) := by
  refine ⟨fun i => ?_, fun i => ?_, fun l h => ⟨ext_lane fun i => ?_, ext_lane fun i => ?_⟩,
    fun h i => ⟨?_, ?_⟩⟩
  · rw [lane_shiftLeft]
    exact Lane.toInt_shiftLeft s _ k
  · rw [lane_shiftRight]
    exact Lane.toInt_shiftRight_eq_floor s _ k
  · simp only [lane_shiftLeft, Lane.shiftLeft_shiftLeft _ h]
  · simp only [lane_shiftRight, Lane.shiftRight_shiftRight s _ h]
  · rw [lane_shiftLeft, Lane.shiftLeft_of_le h, Lane.toInt_zero]
  · rw [lane_shiftRight, Lane.toInt_shiftRight, Lane.toInt_ediv_two_pow s _ (.inl h)]

/-- Eight lanes of both signs, shifted by 20 and by 20 again, so past the width in two steps, and by
a count whose top bit is set. -/
theorem shift_by_any_count_two_registers :
    let a : Batch .quad .int 2 :=
      ⟨#v[#v[0x80000000, 0xffffffff, 0, 1], #v[0x7fffffff, 0xfffffff8, 8, 0x12345678]]⟩
    (20 : Word).toNat + (20 : Word).toNat < 2 ^ 32 ∧ 32 ≤ (0x80000000 : Word).toNat ∧
      (a.shiftRight 20).shiftRight 20 = a.shiftRight 40 ∧
      (a.shiftRight 40).toList = [0xffffffff, 0xffffffff, 0, 0, 0, 0xffffffff, 0, 0] ∧
      ∀ i, Lane.toInt .signed ((a.shiftLeft 0x80000000).lane i) = 0 := by
  intro a
  have hsum : (20 : Word).toNat + (20 : Word).toNat < 2 ^ 32 := by decide
  have hlong : 32 ≤ (0x80000000 : Word).toNat := by decide
  obtain ⟨-, -, htwo, -⟩ := shift_by_any_count a 20
  obtain ⟨-, -, -, hall⟩ := shift_by_any_count a 0x80000000
  exact ⟨hsum, hlong, (htwo 20 hsum).2, by decide +kernel, fun i => (hall hlong i).1⟩

end Batch

end Wavefront
