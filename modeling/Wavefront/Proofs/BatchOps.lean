import Mathlib.Data.List.FinRange
import Wavefront.Batch.Builtin
import Wavefront.Batch.Lanes
import Wavefront.Proofs.RegisterOps

/-!
# Batch operations, lane by lane

Lists of lanes and their counting, the operations that are one register operation for each register,
and those that are not: division, construction from a slice, writes of single lanes, rounding halves
to even, and indexed reads. Each is described by the lanes of its result, so the number of registers
and the way lanes are put into them is no longer seen.
-/

namespace Wavefront

namespace Batch

variable {B : Backend} {k l m : Kind} {n : Nat} {s : Signedness}

/-! ## Lists of lanes -/

theorem regs_eq_ofFn (b : Batch B k n) : b.regs.toList = List.ofFn b.regs.get := by
  rw [← Vector.toList_ofFn]
  congr 1
  exact Vector.ext fun i hi => by rw [Vector.getElem_ofFn]; rfl

/-- The list of a batch has its lanes in order. -/
theorem toList_eq_ofFn (b : Batch B k n) : b.toList = List.ofFn b.lane := by
  refine Eq.trans ?_ (List.ofFn_mul (m := n) (n := B.lanes) b.lane).symm
  rw [toList_eq_flatMap, List.flatMap, b.regs_eq_ofFn, List.map_ofFn]
  congr 2
  funext r
  exact congrArg List.ofFn (funext fun j => (b.lane_laneAt r j).symm)

theorem mem_toList {b : Batch B k n} {v : k.Lane} : v ∈ b.toList ↔ ∃ i, b.lane i = v := by
  rw [toList_eq_ofFn, List.mem_ofFn]

/-! ## Register by register -/

section Registers

variable {t : Number} (mode : Denormals) (i : Fin (width B n))

@[simp] theorem lane_cmpEq (a b : Batch B (.number t) n) :
    (a.cmpEq mode b).lane i = Lane.eq mode (a.lane i) (b.lane i) :=
  (lane_zipRegs _ a b i).trans (Reg.lane_eq mode _ _ _)

@[simp] theorem lane_cmpNe (a b : Batch B (.number t) n) :
    (a.cmpNe mode b).lane i = !Lane.eq mode (a.lane i) (b.lane i) :=
  (lane_zipRegs _ a b i).trans (Reg.lane_ne mode _ _ _)

@[simp] theorem lane_cmpLt (a b : Batch B (.number t) n) :
    (a.cmpLt mode b).lane i = Lane.lt mode (a.lane i) (b.lane i) :=
  (lane_zipRegs _ a b i).trans (Reg.lane_lt mode _ _ _)

@[simp] theorem lane_cmpLe (a b : Batch B (.number t) n) :
    (a.cmpLe mode b).lane i = Lane.le mode (a.lane i) (b.lane i) :=
  (lane_zipRegs _ a b i).trans (Reg.lane_le mode _ _ _)

@[simp] theorem lane_cmpGt (a b : Batch B (.number t) n) :
    (a.cmpGt mode b).lane i = Lane.lt mode (b.lane i) (a.lane i) :=
  (lane_zipRegs _ a b i).trans (Reg.lane_gt mode _ _ _)

@[simp] theorem lane_cmpGe (a b : Batch B (.number t) n) :
    (a.cmpGe mode b).lane i = Lane.le mode (b.lane i) (a.lane i) :=
  (lane_zipRegs _ a b i).trans (Reg.lane_ge mode _ _ _)

@[simp] theorem lane_min (a b : Batch B (.number t) n) :
    (a.min b).lane i = Lane.min (a.lane i) (b.lane i) :=
  (lane_zipRegs _ a b i).trans (Reg.lane_min _ _ _)

@[simp] theorem lane_max (a b : Batch B (.number t) n) :
    (a.max b).lane i = Lane.max (a.lane i) (b.lane i) :=
  (lane_zipRegs _ a b i).trans (Reg.lane_max _ _ _)

@[simp] theorem lane_plus (a b : Batch B (.number t) n) :
    (a + b).lane i = Lane.add .keep (a.lane i) (b.lane i) :=
  (lane_zipRegs _ a b i).trans (Reg.lane_add .keep _ _ _)

@[simp] theorem lane_minus (a b : Batch B (.number t) n) :
    (a - b).lane i = Lane.sub .keep (a.lane i) (b.lane i) :=
  (lane_zipRegs _ a b i).trans (Reg.lane_sub .keep _ _ _)

@[simp] theorem lane_times (a b : Batch B (.number t) n) :
    (a * b).lane i = Lane.mul .keep (a.lane i) (b.lane i) :=
  (lane_zipRegs _ a b i).trans (Reg.lane_mul .keep _ _ _)

@[simp] theorem lane_cast (target : Kind) (a : Batch B k n) :
    (a.cast target).lane i = Lane.cast k target (a.lane i) :=
  (lane_mapRegs _ a i).trans (Reg.lane_cast target _ _)

variable (w : Batch B (.number (.integer s)) n) (count : Word)

@[simp] theorem lane_shiftLeft : (w.shiftLeft count).lane i = Lane.shiftLeft (w.lane i) count :=
  (lane_mapRegs _ w i).trans (Reg.lane_shiftLeft _ count _)

@[simp] theorem lane_shiftRight :
    (w.shiftRight count).lane i = Lane.shiftRight s (w.lane i) count :=
  (lane_mapRegs _ w i).trans (Reg.lane_shiftRight _ count _)

variable (x : Batch B .float n)

@[simp] theorem lane_neg : (-x).lane i = Single.neg (x.lane i) :=
  (lane_mapRegs _ x i).trans (Reg.lane_neg _ _)

@[simp] theorem lane_over (y : Batch B .float n) :
    (x / y).lane i = Single.div .keep (x.lane i) (y.lane i) :=
  (lane_zipRegs _ x y i).trans (Reg.lane_div .keep _ _ _)

variable (lib : MathLibrary)

@[simp] theorem lane_abs : (x.abs lib).lane i = Lane.absLane lib B (x.lane i) :=
  (lane_mapRegs _ x i).trans (Reg.lane_abs lib _ _)

@[simp] theorem lane_trunc : (x.trunc lib).lane i = Lane.truncLane lib B (x.lane i) :=
  (lane_mapRegs _ x i).trans (Reg.lane_trunc lib _ _)

@[simp] theorem lane_round : (x.round lib).lane i = Lane.roundLane lib B (x.lane i) :=
  (lane_mapRegs _ x i).trans (Reg.lane_round lib _ _)

@[simp] theorem lane_floor : (x.floor lib).lane i = Lane.floorLane lib B (x.lane i) :=
  (lane_mapRegs _ x i).trans (Reg.lane_floor lib _ _)

end Registers

/-! ## Division -/

/-- An operation that registers refuse when some lane of the second operand asks for it. -/
theorem zipRegsM_refused {f : Reg B k → Reg B l → Except Fault (Reg B m)}
    {g : k.Lane → l.Lane → m.Lane} {p : l.Lane → Prop} {e : Fault}
    (hf : ∀ r r', RefusedWhen (∃ i, p (r'.lane i)) e (Reg.ofFn fun i => g (r.lane i) (r'.lane i))
      (f r r')) (a : Batch B k n) (b : Batch B l n) :
    RefusedWhen (∃ i, p (b.lane i)) e (ofFn fun i => g (a.lane i) (b.lane i)) (zipRegsM f a b) := by
  refine ((RefusedWhen.ofFnM fun r => hf (a.regs.get r) (b.regs.get r)).bind Batch.mk).congr ?_
    fun _ => ?_
  · constructor
    · rintro ⟨i, hi⟩
      exact ⟨registerOf i, placeOf i, hi⟩
    · rintro ⟨r, j, hj⟩
      exact ⟨laneAt r j, by rwa [lane_laneAt]⟩
  · simp only [ofFn, lane_laneAt]

/-- A word division is refused when some divisor is zero. -/
theorem wordQuotient_refused (a b : Batch B (.number (.integer s)) n) :
    RefusedWhen (∃ i, b.lane i = (0 : Word)) .divisionByZero
      (ofFn fun i => Lane.ratio s (a.lane i) (b.lane i)) (wordQuotient a b) :=
  zipRegsM_refused (k := .number (.integer s)) (l := .number (.integer s))
    (m := .number (.integer s)) (p := fun y : Word => y = 0) (g := Lane.ratio s)
    Reg.quotient_refused a b

theorem remainder_refused (a b : Batch B (.number (.integer s)) n) :
    RefusedWhen (∃ i, b.lane i = (0 : Word)) .remainderByZero
      (ofFn fun i => Lane.excess s (a.lane i) (b.lane i)) (remainder a b) :=
  zipRegsM_refused (k := .number (.integer s)) (l := .number (.integer s))
    (m := .number (.integer s)) (p := fun y : Word => y = 0) (g := Lane.excess s)
    Reg.remainder_refused a b

/-! ## Slices and single lanes -/

/-- A slice that is long enough gives its first lanes. -/
theorem ofSlice_refused (values : List k.Lane) :
    RefusedWhen (values.length < width B n) (.sliceTooShort values.length (width B n))
      (ofFn fun i => values.getD i k.zeroLane) (ofSlice values : Except Fault (Batch B k n)) := by
  refine ⟨fun h => if_pos h, fun h => (if_neg h).trans ?_⟩
  have hload : ∀ r : Fin n, RefusedWhen False .shortSource
      (Reg.ofFn fun j => values.getD (laneAt r j : Fin (width B n)) k.zeroLane)
      (Reg.load (values.drop (r * B.lanes)) : Except Fault (Reg B k)) := by
    refine fun r => ⟨False.elim, fun _ => ?_⟩
    have hr := Nat.mul_le_mul_right B.lanes r.isLt
    rw [Nat.succ_mul] at hr
    rw [width] at h
    have hlength : B.lanes ≤ (values.drop (r * B.lanes)).length := by
      rw [List.length_drop]
      omega
    refine (if_pos hlength).trans (congrArg Except.ok ?_)
    simp only [Reg.ofFront, List.getD_eq_getElem?_getD, List.getElem?_drop, laneAt]
  exact ((RefusedWhen.ofFnM hload).bind Batch.mk).2 fun h => h.elim fun _ h => h

theorem eq_of_register_of_place {i j : Fin (width B n)} (hr : registerOf i = registerOf j)
    (hp : placeOf i = placeOf j) : i = j := by
  rw [← laneAt_registerOf i, ← laneAt_registerOf j, hr, hp]

/-- Writing a register writes its lanes. -/
theorem lane_set (b : Batch B k n) (r : Fin n) (reg : Reg B k) (j : Fin (width B n)) :
    (⟨b.regs.set r reg⟩ : Batch B k n).lane j
      = if registerOf j = r then reg.lane (placeOf j) else b.lane j := by
  have h : (b.regs.set r reg).get (registerOf j)
      = if registerOf j = r then reg else b.regs.get (registerOf j) := by
    refine (Vector.getElem_set _ _).trans ?_
    simp only [Fin.ext_iff, eq_comm]
    rfl
  rw [lane, h]
  split <;> rfl

/-- Writing one lane of one register writes that lane. -/
theorem lane_set_set (b : Batch B k n) (r : Fin n) (p : Fin B.lanes) (v : k.Lane)
    (j : Fin (width B n)) :
    (⟨b.regs.set r ((b.regs.get r).set p v)⟩ : Batch B k n).lane j
      = if j = laneAt r p then v else b.lane j := by
  rw [lane_set, Reg.lane_set]
  by_cases hj : j = laneAt r p
  · rw [hj, registerOf_laneAt, placeOf_laneAt, if_pos rfl, if_pos rfl, if_pos rfl]
  · rw [if_neg hj]
    split
    case isTrue hr =>
      subst hr
      refine if_neg fun hp => hj ?_
      rw [← hp, laneAt_registerOf]
    case isFalse => rfl

theorem setLane_refused (b : Batch B k n) (i : Nat) (v : k.Lane) :
    RefusedWhen (¬i < width B n) (.laneOutOfRange i (width B n))
      (ofFn fun j => if j.val = i then v else b.lane j) (b.setLane i v) := by
  refine ⟨fun h => setLane_of_le b (Nat.not_lt.1 h) v, fun h => ?_⟩
  rw [setLane_of_lt b (Decidable.not_not.1 h)]
  refine congrArg Except.ok (ext_lane fun j => ?_)
  rw [lane_set_set, laneAt_registerOf, lane_ofFn]
  simp only [Fin.ext_iff]

/-! ## Rounding halves to even -/

/-- Rounding halves to even is choosing, lane by lane, between two ways to round, also where it
leaves the choice out because no lane is a tie. -/
theorem roundEven_eq (lib : MathLibrary) (x : Batch B .float n) :
    x.roundEven lib = (x.round lib).assignMasked (x.ties lib) (x.tiesToEven lib) := by
  rw [roundEven]
  split
  case isTrue h =>
    refine ext_lane fun i => ?_
    rw [lane_assignMasked, if_neg]
    intro hi
    rw [Mask.none, Mask.any_eq_true.2 ⟨i, hi⟩] at h
    exact absurd h Bool.false_ne_true
  case isFalse => rfl

/-! ## Indexed reads -/

/-- An indexed read by what it gathers: it ends in a fault if some lane is not hit. -/
theorem readIndexed_eq (b : Batch B k n) (index : Batch B (.number (.integer s)) n)
    (candidates : List (Batch B k n)) :
    b.readIndexed index candidates = ((b.gather index candidates).1,
      if Mask.all (b.gather index candidates).2 then none
      else some (.unmatchedIndex (Mask.count (~~~(b.gather index candidates).2))
        candidates.length)) :=
  (apply_ite (Prod.mk (b.gather index candidates).1) _ _ _).symm

end Batch

namespace Mask

variable {B : Backend} {n : Nat}

theorem any_eq_any_toList (m : Mask B n) : m.any = m.toList.any id := by
  refine Bool.eq_iff_iff.2 (any_eq_true.trans ?_)
  simp [Batch.toList_eq_ofFn, List.mem_ofFn]

theorem all_eq_all_toList (m : Mask B n) : m.all = m.toList.all id := by
  refine Bool.eq_iff_iff.2 (all_eq_true.trans ?_)
  simp [Batch.toList_eq_ofFn, List.mem_ofFn]

/-- The bits of a bitmask are the true lanes. -/
theorem ones_bitmask (r : Reg B .bool) : ones (Reg.bitmask r) = r.toList.countP id := by
  match B with
  | .scalar =>
    have h : ∀ b : Bool, ones b.toNat = [b].countP id := by decide
    exact h r
  | .quad =>
    have h : ∀ a b c d : Bool, ones (a.toNat + 2 * b.toNat + 4 * c.toNat + 8 * d.toNat)
        = (List.ofFn fun i : Fin 4 =>
          (a.toNat + 2 * b.toNat + 4 * c.toNat + 8 * d.toNat).testBit i).countP id := by
      decide
    exact h _ _ _ _

/-- The count of a mask is the number of its true lanes. -/
theorem count_eq_countP (m : Mask B n) : m.count = m.toList.countP id := by
  have h : ∀ (rs : List (Reg B .bool)) (total : Nat),
      rs.foldl (fun total r => total + ones (Reg.bitmask r)) total
        = total + (rs.flatMap Reg.toList).countP id := by
    intro rs
    induction rs with
    | nil => exact fun _ => rfl
    | cons r rs ih =>
      intro total
      rw [List.foldl_cons, ih, List.flatMap_cons, List.countP_append, ones_bitmask, Nat.add_assoc]
  rw [count, ← Vector.foldl_toList, h, Nat.zero_add, Batch.toList_eq_flatMap]

/-- Lane by lane. -/
theorem count_eq_countP_lane (m : Mask B n) :
    m.count = (List.finRange (Batch.width B n)).countP m.lane := by
  rw [count_eq_countP, Batch.toList_eq_ofFn, List.ofFn_eq_map, List.countP_map]
  rfl

/-- The count is full when every lane is true. -/
theorem count_eq_width {m : Mask B n} : m.count = Batch.width B n ↔ ∀ i, m.lane i = true := by
  have h := List.countP_eq_length (p := m.lane) (l := List.finRange (Batch.width B n))
  rw [List.length_finRange] at h
  rw [count_eq_countP_lane, h]
  simp only [List.mem_finRange, true_implies]

/-- No lane is true. -/
theorem none_eq_true {m : Mask B n} : m.none = true ↔ ∀ i, m.lane i = false := by
  rw [none, Bool.not_eq_true', ← Bool.not_eq_true, any_eq_true, not_exists]
  simp only [Bool.not_eq_true]

end Mask

end Wavefront
