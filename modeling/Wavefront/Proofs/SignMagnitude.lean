import Wavefront.Single.Convert

/-!
# Sign and magnitude

A pattern is a sign bit in front of a magnitude, and the bit moves on it are moves of these two
parts. `bits_ofParts` and `ofParts_parts` go back and forth; the sign moves, the constants and the
order are then statements about signs and magnitudes, and no later proof looks at a bit. So is what
a NaN among the operands does: results are NaN (`isNaN_ite_passOn`), and comparisons are false.
-/

namespace Wavefront.Single

variable {x y : Single} {s : Bool} {m : Nat}

/-! ## Parts of a pattern -/

theorem mk_bits (x : Single) : ⟨x.bits⟩ = x := rfl

theorem magnitude_lt (x : Single) : x.magnitude < 0x80000000 := Nat.mod_lt _ (by decide)

/-- The pattern of parts is the sign bit in front of the magnitude. -/
theorem bits_ofParts (s : Bool) (h : m < 0x80000000) :
    (ofParts s m).bits = BitVec.cons s (BitVec.ofNat 31 m) := by
  apply BitVec.eq_of_toNat_eq
  rw [BitVec.toNat_cons', BitVec.toNat_ofNat, Nat.mod_eq_of_lt h, ofParts, BitVec.toNat_ofNat]
  cases s
  · exact Nat.mod_eq_of_lt (by rw [cond_false]; omega)
  · exact Nat.mod_eq_of_lt (by rw [cond_true]; omega)

/-- A pattern is put together from its parts. -/
theorem ofParts_parts (x : Single) : ofParts x.negative x.magnitude = x := by
  have h := BitVec.cons_msb_setWidth x.bits
  obtain ⟨bits⟩ := x
  rw [← Single.mk.injEq] at h
  refine (congrArg Single.mk (bits_ofParts _ (magnitude_lt _))).trans (Eq.trans ?_ h)
  congr 2
  exact BitVec.eq_of_toNat_eq (by simp [magnitude])

@[simp] theorem negative_ofParts (h : m < 0x80000000) : (ofParts s m).negative = s := by
  rw [negative, bits_ofParts s h, BitVec.msb_cons]

@[simp] theorem magnitude_ofParts (h : m < 0x80000000) : (ofParts s m).magnitude = m := by
  rw [magnitude, bits_ofParts s h, BitVec.toNat_cons', BitVec.toNat_ofNat, Nat.mod_eq_of_lt h]
  cases s
  · rw [show false.toNat <<< 31 = 0 from rfl, Nat.zero_add, Nat.mod_eq_of_lt h]
  · rw [show true.toNat <<< 31 = 0x80000000 from rfl, Nat.add_mod_left, Nat.mod_eq_of_lt h]

/-- Patterns with the same parts are the same. -/
theorem ext_parts (hs : x.negative = y.negative) (hm : x.magnitude = y.magnitude) : x = y := by
  rw [← ofParts_parts x, ← ofParts_parts y, hs, hm]

theorem bits_eq_cons (x : Single) :
    x.bits = BitVec.cons x.negative (BitVec.ofNat 31 x.magnitude) := by
  rw [← bits_ofParts _ x.magnitude_lt, ofParts_parts]

/-! ## Sign moves -/

/-- Setting the sign bit of another value leaves the magnitude. -/
theorem or_sign (x y : Single) :
    y.bits ||| (x.bits &&& 0x80000000) = (ofParts (y.negative || x.negative) y.magnitude).bits := by
  rw [bits_ofParts _ y.magnitude_lt, bits_eq_cons x, bits_eq_cons y,
    show (0x80000000 : Word) = BitVec.cons true 0#31 from rfl, BitVec.cons_and_cons,
    BitVec.cons_or_cons, Bool.and_true, BitVec.and_zero, BitVec.or_zero]

theorem neg_eq (x : Single) : x.neg = ofParts (!x.negative) x.magnitude := by
  have h : x.bits ^^^ 0x80000000 = (ofParts (!x.negative) x.magnitude).bits := by
    rw [bits_ofParts _ x.magnitude_lt, bits_eq_cons x,
      show (0x80000000 : Word) = BitVec.cons true 0#31 from rfl, BitVec.cons_xor_cons,
      Bool.xor_true, BitVec.xor_zero]
  exact congrArg Single.mk h

theorem abs_eq (x : Single) : x.abs = ofParts false x.magnitude := by
  have h : x.bits &&& 0x7fffffff = (ofParts false x.magnitude).bits := by
    rw [bits_ofParts _ x.magnitude_lt, bits_eq_cons x,
      show (0x7fffffff : Word) = BitVec.cons false (BitVec.allOnes 31) from rfl,
      BitVec.cons_and_cons, Bool.and_false, BitVec.and_allOnes]
  exact congrArg Single.mk h

theorem quieted_lt (x : Single) : x.magnitude ||| 0x400000 < 0x80000000 :=
  Nat.or_lt_two_pow (n := 31) x.magnitude_lt (by decide)

/-- Setting a bit of the fraction leaves the sign. -/
theorem quiet_eq (x : Single) : x.quiet = ofParts x.negative (x.magnitude ||| 0x400000) := by
  have h : x.bits ||| 0x00400000 = (ofParts x.negative (x.magnitude ||| 0x400000)).bits := by
    rw [bits_ofParts _ x.quieted_lt, bits_eq_cons x,
      show (0x00400000 : Word) = BitVec.cons false (BitVec.ofNat 31 0x400000) from rfl,
      BitVec.cons_or_cons, Bool.or_false, BitVec.ofNat_or]
  exact congrArg Single.mk h

@[simp] theorem negative_neg (x : Single) : x.neg.negative = !x.negative := by
  rw [neg_eq, negative_ofParts x.magnitude_lt]

@[simp] theorem magnitude_neg (x : Single) : x.neg.magnitude = x.magnitude := by
  rw [neg_eq, magnitude_ofParts x.magnitude_lt]

@[simp] theorem negative_abs (x : Single) : x.abs.negative = false := by
  rw [abs_eq, negative_ofParts x.magnitude_lt]

@[simp] theorem magnitude_abs (x : Single) : x.abs.magnitude = x.magnitude := by
  rw [abs_eq, magnitude_ofParts x.magnitude_lt]

@[simp] theorem negative_quiet (x : Single) : x.quiet.negative = x.negative := by
  rw [quiet_eq, negative_ofParts x.quieted_lt]

@[simp] theorem magnitude_quiet (x : Single) : x.quiet.magnitude = x.magnitude ||| 0x400000 := by
  rw [quiet_eq, magnitude_ofParts x.quieted_lt]

/-- Making quiet is the same on both sides of zero. -/
theorem neg_quiet_neg (x : Single) : x.neg.quiet.neg = x.quiet :=
  ext_parts (by simp) (by simp)

/-! ## Classes -/

theorem isNaN_iff : x.isNaN = true ↔ infiniteMagnitude < x.magnitude := decide_eq_true_iff

theorem isFinite_iff : x.isFinite = true ↔ x.magnitude < infiniteMagnitude := decide_eq_true_iff

theorem isInfinite_iff : x.isInfinite = true ↔ x.magnitude = infiniteMagnitude := beq_iff_eq

/-- A value is finite, or infinite, or no number. -/
theorem trichotomy (x : Single) :
    (x.isFinite = true ∧ x.isInfinite = false ∧ x.isNaN = false) ∨
    (x.isFinite = false ∧ x.isInfinite = true ∧ x.isNaN = false) ∨
    (x.isFinite = false ∧ x.isInfinite = false ∧ x.isNaN = true) := by
  simp only [← Bool.not_eq_true, isNaN_iff, isFinite_iff, isInfinite_iff]
  omega

theorem isNaN_congr (h : x.magnitude = y.magnitude) : x.isNaN = y.isNaN := by
  rw [isNaN, isNaN, h]

@[simp] theorem isNaN_neg (x : Single) : x.neg.isNaN = x.isNaN := isNaN_congr x.magnitude_neg

@[simp] theorem isNaN_abs (x : Single) : x.abs.isNaN = x.isNaN := isNaN_congr x.magnitude_abs

@[simp] theorem isNaN_quiet (h : x.isNaN = true) : x.quiet.isNaN = true := by
  rw [isNaN_iff, magnitude_quiet]
  exact Nat.lt_of_lt_of_le (isNaN_iff.1 h) Nat.left_le_or

/-! ## NaN operands -/

section

variable {mode : Denormals}

theorem operand_of_isNaN (h : x.isNaN = true) : mode.operand x = x := by
  have hm : ¬x.magnitude < normalMagnitude :=
    Nat.not_lt.2 (Nat.le_trans (by decide) (Nat.le_of_lt (isNaN_iff.1 h)))
  have hnormal : x.isSubnormal = false := by
    rw [isSubnormal, decide_eq_false hm, Bool.and_false]
  rw [Denormals.operand, hnormal, Bool.and_false, if_neg Bool.false_ne_true]

theorem operand_isNaN (h : x.isNaN = true ∨ y.isNaN = true) :
    (mode.operand x).isNaN = true ∨ (mode.operand y).isNaN = true :=
  h.imp (fun h => by rwa [operand_of_isNaN h]) fun h => by rwa [operand_of_isNaN h]

/-- What is passed on for a NaN operand is one. -/
theorem isNaN_passOn (h : x.isNaN = true ∨ y.isNaN = true) : (passOn x y).isNaN = true := by
  rw [passOn]
  split
  case isTrue hx => exact isNaN_quiet hx
  case isFalse hx => exact isNaN_quiet (h.resolve_left hx)

/-- An operation that looks for NaN operands first leads from them to NaN, whatever it does else. -/
theorem isNaN_ite_passOn (h : x.isNaN = true ∨ y.isNaN = true) (z : Single) :
    (if x.isNaN || y.isNaN then passOn x y else z).isNaN = true := by
  rw [if_pos (Bool.or_eq_true_iff.2 h)]
  exact isNaN_passOn h

theorem isNaN_add (x y : Single) (h : x.isNaN = true ∨ y.isNaN = true) :
    (add mode x y).isNaN = true := isNaN_ite_passOn (operand_isNaN h) _

theorem isNaN_sub (x y : Single) (h : x.isNaN = true ∨ y.isNaN = true) :
    (sub mode x y).isNaN = true := isNaN_ite_passOn h _

theorem isNaN_mul (x y : Single) (h : x.isNaN = true ∨ y.isNaN = true) :
    (mul mode x y).isNaN = true := isNaN_ite_passOn (operand_isNaN h) _

theorem isNaN_div (x y : Single) (h : x.isNaN = true ∨ y.isNaN = true) :
    (div mode x y).isNaN = true := isNaN_ite_passOn (operand_isNaN h) _

theorem eq_of_isNaN (x y : Single) (h : x.isNaN = true ∨ y.isNaN = true) :
    eq mode x y = false := by
  rcases h with h | h <;> simp [eq, operand_of_isNaN h, h]

theorem lt_of_isNaN (x y : Single) (h : x.isNaN = true ∨ y.isNaN = true) :
    lt mode x y = false := by
  rcases h with h | h <;> simp [lt, operand_of_isNaN h, h]

theorem le_of_isNaN (x y : Single) (h : x.isNaN = true ∨ y.isNaN = true) :
    le mode x y = false := by
  rcases h with h | h <;> simp [le, operand_of_isNaN h, h]

end

/-! ## Order -/

@[simp] theorem operand_keep (x : Single) : Denormals.keep.operand x = x := rfl

/-- The order of numbers is the order of their positions. -/
theorem lt_keep_iff (hx : x.isNaN = false) (hy : y.isNaN = false) :
    lt .keep x y = true ↔ x.position < y.position := by
  rw [lt, operand_keep, operand_keep, hx, hy]
  exact decide_eq_true_iff

theorem le_keep_iff (hx : x.isNaN = false) (hy : y.isNaN = false) :
    le .keep x y = true ↔ x.position ≤ y.position := by
  rw [le, operand_keep, operand_keep, hx, hy]
  exact decide_eq_true_iff

end Wavefront.Single
