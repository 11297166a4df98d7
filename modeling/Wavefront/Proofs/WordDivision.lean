import Wavefront.Proofs.IntegerRounding
import Wavefront.Proofs.BatchOps
import Wavefront.Proofs.Updates
import Wavefront.Proofs.WordNumbers

/-!
# Division of words

Integer batches are divided toward zero. Read as numbers, the quotient of two words is the exact one
without its rest and the remainder is what makes up for it (`toInt_ratio`, `toInt_excess`), with one
exception: the least signed word by -1 is out of range (`Overflows`). The two operations are
wrapping ones, and what they say together holds there also (`ratio_mul_add_excess`).

A batch is divided register by register and, on the four-lane unit, lane by lane in a buffer that
has slots behind the lanes. Nothing of that is seen: a division is refused if and only if one of the
divisors is zero, and then it is refused as a whole, so a compound assignment has not begun to write
its target.

Main statement: `division_toward_zero`.
-/

namespace Wavefront

/-! ## Cutting a quotient -/

/-- A quotient of naturals is cut by leaving its rest out, whatever its sign. -/
theorem towardZero_quotient (sign : Bool) (m : ℕ) {d : ℕ} (hd : 0 < d) :
    towardZero (if sign then -((m : ℚ) / d) else (m : ℚ) / d)
      = if sign then -((m / d : ℕ) : ℤ) else (m / d : ℕ) := by
  obtain ⟨hlow, hhigh⟩ := rest_bounds (n := m) hd
  rw [cast_div_eq hd]
  exact towardZero_signed hlow hhigh sign (m / d)

/-- Division of integers toward zero cuts their quotient. -/
theorem tdiv_eq_towardZero (a : ℤ) {b : ℤ} (hb : b ≠ 0) : a.tdiv b = towardZero (a / b) := by
  obtain ⟨m, ha⟩ := Int.eq_nat_or_neg a
  obtain ⟨d, hd⟩ := Int.eq_nat_or_neg b
  have hpos : 0 < d := by omega
  have hcut : (m : ℤ).tdiv d = (m / d : ℕ) := (Int.ofNat_tdiv m d).symm
  have habove := towardZero_quotient false m hpos
  have hbelow := towardZero_quotient true m hpos
  simp only [if_true, Bool.false_eq_true, if_false] at habove hbelow
  rcases ha with rfl | rfl <;> rcases hd with rfl | rfl
  · rw [hcut, Int.cast_natCast, Int.cast_natCast, habove]
  · rw [Int.tdiv_neg, hcut, Int.cast_neg, Int.cast_natCast, Int.cast_natCast, div_neg, hbelow]
  · rw [Int.neg_tdiv, hcut, Int.cast_neg, Int.cast_natCast, Int.cast_natCast, neg_div, hbelow]
  · rw [Int.neg_tdiv_neg, hcut, Int.cast_neg, Int.cast_neg, neg_div_neg_eq, Int.cast_natCast,
      Int.cast_natCast, habove]

namespace Lane

variable {s : Signedness} {x y : Word}

/-! ## Quotients and remainders of words -/

/-- The quotient is no word: the least signed word has no opposite. -/
def Overflows (s : Signedness) (x y : Word) : Prop :=
  s = .signed ∧ x = 0x80000000 ∧ y = 0xffffffff

instance : Decidable (Overflows s x y) := inferInstanceAs (Decidable (_ ∧ _))

theorem toInt_ratio (h : ¬Overflows s x y) :
    toInt s (ratio s x y) = (toInt s x).tdiv (toInt s y) := by
  cases s with
  | signed =>
    refine BitVec.toInt_sdiv_of_ne_or_ne x y ?_
    by_contra hxy
    rw [not_or, not_not, not_not] at hxy
    exact h ⟨rfl, hxy.1, hxy.2⟩
  | unsigned => exact (congrArg Nat.cast BitVec.toNat_udiv).trans (Int.ofNat_tdiv _ _)

theorem toInt_excess (s : Signedness) (x y : Word) :
    toInt s (excess s x y) = (toInt s x).tmod (toInt s y) := by
  cases s with
  | signed => exact BitVec.toInt_srem x y
  | unsigned => exact (congrArg Nat.cast BitVec.toNat_umod).trans (Int.ofNat_tmod _ _)

/-- Quotient and remainder put the dividend together again, also where the quotient overflows. -/
theorem ratio_mul_add_excess (s : Signedness) (x y : Word) :
    ratio s x y * y + excess s x y = x := by
  by_cases h : Overflows s x y
  · obtain ⟨rfl, rfl, rfl⟩ := h
    decide
  · calc ratio s x y * y + excess s x y
        = BitVec.ofInt 32 (toInt s (ratio s x y)) * BitVec.ofInt 32 (toInt s y)
            + BitVec.ofInt 32 (toInt s (excess s x y)) := by simp only [ofInt_toInt]
      _ = BitVec.ofInt 32 ((toInt s x).tdiv (toInt s y) * toInt s y
            + (toInt s x).tmod (toInt s y)) := by
          rw [BitVec.ofInt_add, BitVec.ofInt_mul, toInt_ratio h, toInt_excess]
      _ = x := by rw [Int.tdiv_mul_add_tmod, ofInt_toInt]

/-- `q` and `r` are the quotient and the remainder of `x` by `y`. -/
structure Divides (s : Signedness) (x y q r : Word) : Prop where
  /-- together they give the dividend, in wrapping arithmetic -/
  recombines : x = q * y + r
  /-- the remainder is smaller than the divisor -/
  smaller : |toInt s r| < |toInt s y|
  /-- a remainder has the sign of the dividend -/
  sign : r = 0 ∨ (toInt s r).sign = (toInt s x).sign
  /-- the exact quotient is cut toward zero -/
  cut : ¬Overflows s x y → toInt s q = towardZero (toInt s x / toInt s y)
  /-- the least signed word by -1 is itself, without a remainder -/
  overflow : Overflows s x y → q = 0x80000000 ∧ r = 0

theorem divides (s : Signedness) (x : Word) (hy : y ≠ 0) :
    Divides s x y (ratio s x y) (excess s x y) := by
  have hy : toInt s y ≠ 0 := mt toInt_eq_zero.1 hy
  refine ⟨(ratio_mul_add_excess s x y).symm, ?_, ?_, fun h => ?_, ?_⟩
  · rw [toInt_excess, Int.abs_eq_natAbs, Int.abs_eq_natAbs, Int.natAbs_tmod]
    exact Int.ofNat_lt.2 (Nat.mod_lt _ (Int.natAbs_pos.2 hy))
  · rw [← toInt_eq_zero (s := s), toInt_excess, ← Int.sign_eq_zero_iff_zero, Int.sign_tmod]
    split
    · exact .inl rfl
    · exact .inr rfl
  · rw [toInt_ratio h, tdiv_eq_towardZero _ hy]
  · rintro ⟨rfl, rfl, rfl⟩
    decide

end Lane

open Script

/-! ## Compound assignments -/

namespace Script

variable {B : Backend} {n : Nat} {s : Signedness} {a b : Batch B (.number (.integer s)) n}
  {fault : Fault} (lib : MathLibrary) (mode : Denormals)

theorem Binary.div_refused (h : a.wordQuotient b = .error fault) :
    Binary.apply lib mode .div ⟨_, a⟩ ⟨_, b⟩ = .error (.fault fault) := by
  rw [Binary.apply]
  exact Value.refused_with h

theorem Binary.rem_refused (h : a.remainder b = .error fault) :
    Binary.apply lib mode .rem ⟨_, a⟩ ⟨_, b⟩ = .error (.fault fault) := by
  rw [Binary.apply]
  exact Value.refused_with h

end Script

namespace Batch

variable {B : Backend} {n : Nat} {s : Signedness}

/-- A quotient is refused with its own text if and only if some lane of the divisor is zero, and so
is a remainder. Otherwise both have all lanes, and on each they are the quotient, cut toward zero,
and the remainder of the words. A compound assignment that is refused leaves everything as it was,
and so all lanes of its target. -/
theorem division_toward_zero (a b : Batch B (.number (.integer s)) n) :
    ((∃ e, a.wordQuotient b = .error e ∧ e.message = "attempt to divide by zero") ↔
      ∃ i, b.lane i = (0 : Word)) ∧
    ((∃ e, a.remainder b = .error e ∧
        e.message = "attempt to calculate the remainder with a divisor of zero") ↔
      ∃ i, b.lane i = (0 : Word)) ∧
    ((∀ i, b.lane i ≠ (0 : Word)) → ∃ q r, a.wordQuotient b = .ok q ∧ a.remainder b = .ok r ∧
      ∀ i, Lane.Divides s (a.lane i) (b.lane i) (q.lane i) (r.lane i)) ∧
    ∀ (f : Flow B n (Store B n)) (name : String) (e : Expr),
      f.state.scope.get name = .ok ⟨_, a⟩ → e.eval f.state.scope = .ok ⟨_, b⟩ →
      (∃ i, b.lane i = (0 : Word)) →
      (Action.update name (.combine .div e)).run f
        = (f, .failed (.fault .divisionByZero) (some ⟨_, a.toList⟩)) ∧
      (Action.update name (.combine .rem e)).run f
        = (f, .failed (.fault .remainderByZero) (some ⟨_, a.toList⟩)) := by
  have hquotient := wordQuotient_refused a b
  have hremainder := remainder_refused a b
  refine ⟨⟨?_, fun h => ⟨_, hquotient.1 h, rfl⟩⟩, ⟨?_, fun h => ⟨_, hremainder.1 h, rfl⟩⟩,
    fun h => ?_, fun f name e hx he h => ⟨?_, ?_⟩⟩
  · rintro ⟨e, he, -⟩
    exact hquotient.exists_error_iff.1 ⟨e, he⟩
  · rintro ⟨e, he, -⟩
    exact hremainder.exists_error_iff.1 ⟨e, he⟩
  · have hnone : ¬∃ i, b.lane i = (0 : Word) := fun ⟨i, hi⟩ => h i hi
    refine ⟨_, _, hquotient.2 hnone, hremainder.2 hnone, fun i => ?_⟩
    rw [lane_ofFn, lane_ofFn]
    exact Lane.divides s _ (h i)
  · have hop := Binary.div_refused f.state.library f.state.scope.mode (hquotient.1 h)
    rw [Action.run_update_refused hx (Update.combine_refused he hop), fail_of_unlogged rfl]
    rfl
  · have hop := Binary.rem_refused f.state.library f.state.scope.mode (hremainder.1 h)
    rw [Action.run_update_refused hx (Update.combine_refused he hop), fail_of_unlogged rfl]
    rfl

/-- Eight lanes divided by numbers of both signs, among them the least word by -1, and a division by
zero in the second register, of which the first register of the target shows nothing. -/
theorem division_toward_zero_two_registers :
    let a : Batch .quad .int 2 :=
      ⟨#v[#v[0x80000000, 7, 0xfffffff9, 7], #v[0x7fffffff, 0x80000000, 0, 5]]⟩
    let b : Batch .quad .int 2 := ⟨#v[#v[0xffffffff, 2, 2, 0xfffffffe], #v[3, 0x80000000, 4, 9]]⟩
    let c : Batch .quad .int 2 := ⟨#v[#v[2, 2, 2, 2], #v[2, 2, 0, 2]]⟩
    let f : Flow .quad 2 (Store .quad 2) :=
      ⟨WriteMask.fresh, ((Store.fresh .double).put "x" ⟨.int, a⟩).put "y" ⟨.int, c⟩, []⟩
    (∀ i, b.lane i ≠ (0 : Word)) ∧
      (∃ q r, a.wordQuotient b = .ok q ∧ a.remainder b = .ok r ∧
        q.toList = [0x80000000, 3, 0xfffffffd, 0xfffffffd, 0x2aaaaaaa, 1, 0, 0] ∧
        r.toList = [0, 1, 0xffffffff, 1, 1, 0, 0, 5]) ∧
      (∃ i, c.lane i = (0 : Word)) ∧
      f.state.scope.get "x" = .ok ⟨.int, a⟩ ∧ (Expr.var "y").eval f.state.scope = .ok ⟨.int, c⟩ ∧
      (Action.update "x" (.combine .div (.var "y"))).run f
        = (f, .failed (.fault .divisionByZero) (some ⟨.int, a.toList⟩)) := by
  intro a b c f
  have hb : ∀ i, b.lane i ≠ (0 : Word) := by decide +kernel
  have hc : ∃ i, c.lane i = (0 : Word) := by decide +kernel
  obtain ⟨-, -, hdivides, -⟩ := division_toward_zero a b
  obtain ⟨-, -, -, hcompound⟩ := division_toward_zero a c
  obtain ⟨q, r, hq, hr, -⟩ := hdivides hb
  have hquotients : (a.wordQuotient b).map toList
      = .ok [0x80000000, 3, 0xfffffffd, 0xfffffffd, 0x2aaaaaaa, 1, 0, 0] := by decide +kernel
  have hremainders : (a.remainder b).map toList
      = .ok [0, 1, 0xffffffff, 1, 1, 0, 0, 5] := by decide +kernel
  rw [hq] at hquotients
  rw [hr] at hremainders
  exact ⟨hb, ⟨q, r, hq, hr, Except.ok.inj hquotients, Except.ok.inj hremainders⟩, hc, rfl, rfl,
    (hcompound f "x" (.var "y") rfl rfl hc).1⟩

end Batch

end Wavefront
