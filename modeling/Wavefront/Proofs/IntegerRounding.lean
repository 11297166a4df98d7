import Mathlib.Algebra.Order.Archimedean.Basic
import Mathlib.Algebra.Order.Round
import Mathlib.Data.Rat.Floor
import Mathlib.Tactic.Linarith
import Wavefront.Proofs.ExactValue

/-!
# Rounding to integers

What it means to round a rational number to an integer, said without the arithmetic that does it:
the integer next to it on one side, or the nearest of all integers, with a rule for halves. The
nearest of other points is the same notion.

* `Nearest.of_half`: an integer at most one half away is nearest, so only the two neighbours of a
  number are ever looked at (`nearest_below`, `nearest_above`).
* `towardZero_signed`, `floor_signed`, `ceil_signed`: the neighbours of a number that is given by
  its sign, its integer part and a rest.
* `nearestEven_isNearest`, `quotient_isNearestAway`: the rounded quotients of naturals are nearest.
-/

namespace Wavefront

variable {prefers : ℤ → ℤ → Prop} {q : ℚ} {j k : ℤ} {n d : ℕ}

/-! ## Integers beside a rational number -/

/-- The integer next to a number on the side of zero. -/
def towardZero (q : ℚ) : ℤ := if q < 0 then ⌈q⌉ else ⌊q⌋

/-- Of a family of points, the one at `k` is nearest to `q`, and preferred to every other one that
is as near. -/
structure NearestAmong {ι : Type} (point : ι → ℚ) (prefers : ι → ι → Prop) (q : ℚ) (k : ι) :
    Prop where
  /-- no point is nearer -/
  le : ∀ j, |q - point k| ≤ |q - point j|
  /-- among two that are equally near -/
  tie : ∀ j, j ≠ k → |q - point j| = |q - point k| → prefers k j

/-- The nearest of all integers. -/
abbrev Nearest (prefers : ℤ → ℤ → Prop) : ℚ → ℤ → Prop := NearestAmong Int.cast prefers

/-- The nearest integer, halves away from zero. -/
def IsNearestAway : ℚ → ℤ → Prop := Nearest fun k j => |j| < |k|

/-- The nearest integer, halves to the even one. -/
def IsNearestEven : ℚ → ℤ → Prop := Nearest fun k _ => Even k

/-- Nearer to the lower of two points is below their middle. -/
theorem two_mul_le_of_nearer {a b : ℚ} (hab : a < b) (h : |q - a| ≤ |q - b|) : 2 * q ≤ a + b := by
  have hsq : (b - a) * (2 * q - (a + b)) ≤ 0 := by linarith [sq_le_sq.2 h]
  exact sub_nonpos.1 (nonpos_of_mul_nonpos_right hsq (sub_pos.2 hab))

/-- Nearer to the upper one is above it. -/
theorem le_two_mul_of_nearer {a b : ℚ} (hab : a < b) (h : |q - b| ≤ |q - a|) : a + b ≤ 2 * q := by
  have hsq : (b - a) * ((a + b) - 2 * q) ≤ 0 := by linarith [sq_le_sq.2 h]
  exact sub_nonpos.1 (nonpos_of_mul_nonpos_right hsq (sub_pos.2 hab))

/-- The point nearer to the lower of two numbers is not above the one nearer to the other. -/
theorem le_of_nearer {r a b : ℚ} (hqr : q < r) (ha : |q - a| ≤ |q - b|) (hb : |r - b| ≤ |r - a|) :
    a ≤ b := by
  by_contra hlt
  have hlt := not_le.1 hlt
  linarith [le_two_mul_of_nearer hlt ha, two_mul_le_of_nearer hlt hb]

/-- Two integers are not both nearer than one half. -/
theorem one_le_abs_sub_add (h : j ≠ k) : 1 ≤ |q - j| + |q - k| := by
  have hjk : (1 : ℚ) ≤ |(j : ℚ) - k| := by
    exact_mod_cast Int.one_le_abs (sub_ne_zero.2 h)
  calc (1 : ℚ) ≤ |(j : ℚ) - k| := hjk
    _ ≤ |(j : ℚ) - q| + |q - k| := abs_sub_le _ _ _
    _ = |q - j| + |q - k| := by rw [abs_sub_comm (j : ℚ) q]

/-- An integer at most one half away is nearest, and only at one half is there another. -/
theorem Nearest.of_half (h : 2 * |q - k| ≤ 1)
    (tie : ∀ j, j ≠ k → |q - j| = |q - k| → 2 * |q - k| = 1 → prefers k j) :
    Nearest prefers q k := by
  refine ⟨fun j => ?_, fun j hj heq => tie j hj heq ?_⟩
  · by_cases hj : j = k
    · rw [hj]
    · linarith [one_le_abs_sub_add (q := q) hj]
  · linarith [one_le_abs_sub_add (q := q) hj]

/-- Nearest is kept by mirroring when the preference is. -/
theorem Nearest.neg (hp : ∀ k j, prefers k j → prefers (-k) (-j)) (h : Nearest prefers q k) :
    Nearest prefers (-q) (-k) := by
  have hdist : ∀ j : ℤ, |-q - (j : ℚ)| = |q - ((-j : ℤ) : ℚ)| := by
    intro j
    rw [Int.cast_neg, ← abs_neg, neg_sub, sub_neg_eq_add, sub_neg_eq_add, add_comm]
  refine ⟨fun j => ?_, fun j hj heq => ?_⟩
  · rw [hdist, hdist, neg_neg]
    exact h.le (-j)
  · rw [hdist, hdist, neg_neg] at heq
    have := hp k (-j) (h.tie (-j) (fun hk => hj (by rw [← hk, neg_neg])) heq)
    rwa [neg_neg] at this

/-! ## Between two integers -/

/-- Half way between two integers there is no third one as near. -/
theorem eq_or_eq_of_half {rest : ℚ} (hrest : 2 * rest = 1) (h : 2 * |k + rest - j| = 1) :
    j = k ∨ j = k + 1 := by
  have hhalf : |(k : ℚ) + rest - j| = 1 / 2 := by linarith
  rcases (abs_eq (by norm_num)).1 hhalf with h | h
  · left
    exact_mod_cast (by linarith : (j : ℚ) = k)
  · right
    exact_mod_cast (by linarith : (j : ℚ) = k + 1)

/-- In the lower half the integer below is nearest. -/
theorem nearest_below {rest : ℚ} (hlow : 0 ≤ rest) (hhalf : 2 * rest ≤ 1)
    (tie : 2 * rest = 1 → prefers k (k + 1)) : Nearest prefers (k + rest) k := by
  have hdist : |(k : ℚ) + rest - k| = rest := by rw [add_sub_cancel_left, abs_of_nonneg hlow]
  refine .of_half (by rw [hdist]; exact hhalf) fun j hj heq h => ?_
  rw [hdist] at heq h
  rcases eq_or_eq_of_half h (by rw [heq]; exact h) with rfl | rfl
  · exact absurd rfl hj
  · exact tie h

/-- In the upper half the integer above is nearest. -/
theorem nearest_above {rest : ℚ} (hhigh : rest ≤ 1) (hhalf : 1 ≤ 2 * rest)
    (tie : 2 * rest = 1 → prefers (k + 1) k) : Nearest prefers (k + rest) (k + 1 : ℤ) := by
  have hdist : |(k : ℚ) + rest - (k + 1 : ℤ)| = 1 - rest := by
    rw [Int.cast_add, Int.cast_one, add_sub_add_left_eq_sub, abs_sub_comm,
      abs_of_nonneg (by linarith)]
  refine .of_half (by rw [hdist]; linarith) fun j hj heq h => ?_
  rw [hdist] at heq h
  have hrest : 2 * rest = 1 := by linarith
  rcases eq_or_eq_of_half hrest (by rw [heq]; exact h) with rfl | rfl
  · exact tie hrest
  · exact absurd rfl hj

/-! ## Beside a signed number -/

/-- Toward zero the rest is dropped, whatever the sign. -/
theorem towardZero_signed {rest : ℚ} (hlow : 0 ≤ rest) (hhigh : rest < 1) (sign : Bool)
    (whole : ℕ) : towardZero (if sign then -(whole + rest) else whole + rest)
      = if sign then -(whole : ℤ) else whole := by
  have hwhole : (0 : ℚ) ≤ whole := Nat.cast_nonneg _
  rw [towardZero]
  cases sign
  · rw [if_neg Bool.false_ne_true, if_neg Bool.false_ne_true, if_neg (by linarith),
      Int.floor_eq_iff, Int.cast_natCast]
    constructor <;> linarith
  · rw [if_pos rfl, if_pos rfl]
    split
    case isTrue =>
      rw [Int.ceil_eq_iff, Int.cast_neg, Int.cast_natCast]
      constructor <;> linarith
    case isFalse =>
      rw [Int.floor_eq_iff, Int.cast_neg, Int.cast_natCast]
      constructor <;> linarith

theorem towardZero_mono {r : ℚ} (h : q ≤ r) : towardZero q ≤ towardZero r := by
  rw [towardZero, towardZero]
  by_cases hq : q < 0
  · rw [if_pos hq]
    split
    case isTrue => exact Int.ceil_mono h
    case isFalse hr =>
      calc ⌈q⌉ ≤ 0 := Int.ceil_le.2 (by exact_mod_cast hq.le)
        _ ≤ ⌊r⌋ := Int.floor_nonneg.2 (not_lt.1 hr)
  · rw [if_neg hq, if_neg (not_lt.2 ((not_lt.1 hq).trans h))]
    exact Int.floor_mono h

/-- Below zero the floor is one farther out, unless there is no rest. -/
theorem floor_signed {rest : ℚ} (hlow : 0 ≤ rest) (hhigh : rest < 1) (sign : Bool) (whole : ℕ) :
    ⌊if sign then -(whole + rest) else whole + rest⌋
      = if sign then -((if rest = 0 then whole else whole + 1 : ℕ) : ℤ) else whole := by
  rw [Int.floor_eq_iff]
  cases sign
  · rw [if_neg Bool.false_ne_true, if_neg Bool.false_ne_true, Int.cast_natCast]
    constructor <;> linarith
  · rw [if_pos rfl, if_pos rfl, Int.cast_neg, Int.cast_natCast]
    split
    case isTrue h => constructor <;> linarith
    case isFalse h =>
      have hpos := lt_of_le_of_ne hlow (Ne.symm h)
      rw [Nat.cast_succ]
      constructor <;> linarith

/-- The ceiling is the floor mirrored. -/
theorem ceil_signed {rest : ℚ} (hlow : 0 ≤ rest) (hhigh : rest < 1) (sign : Bool) (whole : ℕ) :
    ⌈if sign then -(whole + rest) else whole + rest⌉
      = if sign then -(whole : ℤ) else (if rest = 0 then whole else whole + 1 : ℕ) := by
  have h := floor_signed hlow hhigh (!sign) whole
  rw [← neg_inj, ← Int.floor_neg]
  cases sign
  · exact h
  · rw [if_pos rfl, if_pos rfl, neg_neg, neg_neg]
    exact h

/-! ## Quotients of naturals -/

/-- The rest of a division as a part of the divisor. -/
theorem rest_bounds (hd : 0 < d) :
    0 ≤ ((n % d : ℕ) : ℚ) / d ∧ ((n % d : ℕ) : ℚ) / d < 1 := by
  have hd' : (0 : ℚ) < d := Nat.cast_pos.2 hd
  exact ⟨div_nonneg (Nat.cast_nonneg _) hd'.le,
    (div_lt_one hd').2 (Nat.cast_lt.2 (Nat.mod_lt n hd))⟩

theorem two_mul_rest_lt (hd : 0 < d) :
    2 * (((n % d : ℕ) : ℚ) / d) < 1 ↔ 2 * (n % d) < d := by
  rw [← mul_div_assoc, div_lt_one (Nat.cast_pos.2 hd)]
  exact_mod_cast Iff.rfl

theorem one_lt_two_mul_rest (hd : 0 < d) :
    1 < 2 * (((n % d : ℕ) : ℚ) / d) ↔ d < 2 * (n % d) := by
  rw [← mul_div_assoc, one_lt_div (Nat.cast_pos.2 hd)]
  exact_mod_cast Iff.rfl

/-- The rounded quotient is nearest, and even at a half. -/
theorem nearestEven_isNearest (hd : 0 < d) :
    IsNearestEven ((n : ℚ) / d) (nearestEven n d : ℕ) := by
  obtain ⟨hlow, hhigh⟩ := rest_bounds (n := n) hd
  have hbelow := two_mul_rest_lt (n := n) hd
  have habove := one_lt_two_mul_rest (n := n) hd
  rw [cast_div_eq hd, ← Int.cast_natCast (n / d), nearestEven]
  generalize ((n % d : ℕ) : ℚ) / d = rest at *
  by_cases hlt : 2 * (n % d) < d
  · rw [if_pos hlt]
    exact nearest_below hlow (hbelow.2 hlt).le fun h => absurd h (hbelow.2 hlt).ne
  · rw [if_neg hlt]
    by_cases hgt : d < 2 * (n % d)
    · rw [if_pos hgt]
      exact nearest_above hhigh.le (habove.2 hgt).le fun h => absurd h (habove.2 hgt).ne'
    · rw [if_neg hgt]
      have hle := not_lt.1 (mt habove.1 hgt)
      have hge := not_lt.1 (mt hbelow.1 hlt)
      -- the one of the two that is even
      rcases Nat.mod_two_eq_zero_or_one (n / d) with heven | hodd
      · rw [heven]
        exact nearest_below hlow hle fun _ => (Nat.even_iff.2 heven).natCast
      · rw [hodd]
        exact nearest_above hhigh.le hge fun _ => (Nat.odd_iff.2 hodd).natCast.add_one

/-- Away from zero a half counts as more. -/
theorem quotient_isNearestAway (hd : 0 < d) :
    IsNearestAway ((n : ℚ) / d) (if d ≤ 2 * (n % d) then n / d + 1 else n / d : ℕ) := by
  obtain ⟨hlow, hhigh⟩ := rest_bounds (n := n) hd
  have hbelow := two_mul_rest_lt (n := n) hd
  rw [cast_div_eq hd, ← Int.cast_natCast (n / d)]
  generalize ((n % d : ℕ) : ℚ) / d = rest at *
  by_cases h : d ≤ 2 * (n % d)
  · rw [if_pos h]
    refine nearest_above hhigh.le (not_lt.1 (mt hbelow.1 (Nat.not_lt.2 h))) fun _ => ?_
    have hwhole : (0 : ℤ) ≤ (n / d : ℕ) := Int.natCast_nonneg _
    rw [abs_of_nonneg hwhole, abs_of_nonneg (Int.le_add_one hwhole)]
    exact Int.lt_succ _
  · rw [if_neg h]
    have hlt := hbelow.2 (Nat.lt_of_not_le h)
    exact nearest_below hlow hlt.le fun heq => absurd heq hlt.ne

end Wavefront
