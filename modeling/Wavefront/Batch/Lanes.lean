import Wavefront.Register.Lanes
import Wavefront.Batch.Select

/-!
# The lanes of batches

`Batch.lane` is the one view of a batch: batches with the same lanes are the same (`ext_lane`), and
`lane_assignMasked`, `Mask.lane_and` and their like describe an operation by the lanes of its
result. The reductions of a mask are statements about all of its lanes.
-/

namespace Wavefront

namespace Batch

variable {B : Backend} {k : Kind} {n : Nat}

/-! ## Where a lane is -/

@[simp] theorem registerOf_laneAt (r : Fin n) (j : Fin B.lanes) : registerOf (laneAt r j) = r := by
  apply Fin.ext
  simp only [registerOf, laneAt]
  rw [Nat.mul_comm, Nat.mul_add_div B.lanes_pos, Nat.div_eq_of_lt j.isLt, Nat.add_zero]

@[simp] theorem placeOf_laneAt (r : Fin n) (j : Fin B.lanes) : placeOf (laneAt r j) = j := by
  apply Fin.ext
  simp only [placeOf, laneAt]
  rw [Nat.mul_comm, Nat.mul_add_mod, Nat.mod_eq_of_lt j.isLt]

@[simp] theorem laneAt_registerOf (i : Fin (width B n)) :
    laneAt (registerOf i) (placeOf i) = i := by
  apply Fin.ext
  simp only [registerOf, placeOf, laneAt]
  rw [Nat.mul_comm, Nat.div_add_mod]

/-- A lane by its register and its place there. -/
theorem lane_laneAt (b : Batch B k n) (r : Fin n) (j : Fin B.lanes) :
    b.lane (laneAt r j) = (b.regs.get r).lane j := by
  rw [lane, registerOf_laneAt, placeOf_laneAt]

/-- Batches with the same lanes are the same. -/
theorem ext_lane {a b : Batch B k n} (h : ∀ i, a.lane i = b.lane i) : a = b := by
  have hr : a.regs = b.regs := by
    apply Vector.ext
    intro r hr
    apply Reg.ext_lane
    intro j
    have h := h (laneAt ⟨r, hr⟩ j)
    rwa [lane_laneAt, lane_laneAt] at h
  cases a; cases b; cases hr; rfl

/-! ## Building -/

@[simp] theorem lane_splat (v : k.Lane) (i : Fin (width B n)) :
    (splat v : Batch B k n).lane i = v := by
  have h : (splat v : Batch B k n).regs.get (registerOf i) = Reg.splat v :=
    Vector.getElem_replicate _
  rw [lane, h, Reg.lane_splat]

@[simp] theorem lane_ofFn (f : Fin (width B n) → k.Lane) (i : Fin (width B n)) :
    (ofFn f : Batch B k n).lane i = f i := by
  have h : (ofFn f : Batch B k n).regs.get (registerOf i)
      = Reg.ofFn fun j => f (laneAt (registerOf i) j) :=
    Vector.getElem_ofFn _
  rw [lane, h, Reg.lane_ofFn, laneAt_registerOf]

/-- A function without effects gives its answers to the lanes. -/
theorem ofFnM_pure {m : Type → Type} [Monad m] [LawfulMonad m] (f : Fin (width B n) → k.Lane) :
    (ofFnM fun i => pure (f i) : m (Batch B k n)) = pure (ofFn f) := by
  have hget : ∀ r : Fin n, (Vector.ofFn fun j : Fin B.lanes => f (laneAt r j)).get
      = fun j => f (laneAt r j) :=
    fun r => funext fun j => Vector.getElem_ofFn _
  simp only [ofFnM, Vector.ofFnM_pure, pure_bind, Reg.ofFront_append, hget, ofFn]

/-! ## Lanes by number -/

/-- A lane that there is can be read. -/
theorem getLane_of_lt (b : Batch B k n) {i : Nat} (h : i < width B n) :
    b.getLane i = .ok (b.lane ⟨i, h⟩) := by
  have hr : i / B.lanes < n := (registerOf ⟨i, h⟩).isLt
  rw [getLane, if_pos h, register, dif_pos hr]
  exact dif_pos (placeOf ⟨i, h⟩).isLt

theorem getLane_of_le (b : Batch B k n) {i : Nat} (h : width B n ≤ i) :
    b.getLane i = .error (.laneOutOfRange i (width B n)) :=
  if_neg (Nat.not_lt.2 h)

/-- A lane that there is can be replaced, in its register. -/
theorem setLane_of_lt (b : Batch B k n) {i : Nat} (h : i < width B n) (v : k.Lane) :
    b.setLane i v = .ok ⟨b.regs.set (registerOf ⟨i, h⟩)
      ((b.regs.get (registerOf ⟨i, h⟩)).set (placeOf ⟨i, h⟩) v)⟩ := by
  have hr : i / B.lanes < n := (registerOf ⟨i, h⟩).isLt
  have hp : i % B.lanes < B.lanes := (placeOf ⟨i, h⟩).isLt
  have hinsert : (b.regs.get ⟨i / B.lanes, hr⟩).insert (i % B.lanes) v
      = .ok ((b.regs.get ⟨i / B.lanes, hr⟩).set ⟨i % B.lanes, hp⟩ v) :=
    dif_pos hp
  have hregister : b.register (i / B.lanes) = .ok (b.regs.get ⟨i / B.lanes, hr⟩) := dif_pos hr
  simp only [setLane, if_pos h, hregister, bind, Except.bind, hinsert]
  exact dif_pos hr

theorem setLane_of_le (b : Batch B k n) {i : Nat} (h : width B n ≤ i) (v : k.Lane) :
    b.setLane i v = .error (.laneOutOfRange i (width B n)) :=
  if_neg (Nat.not_lt.2 h)

/-! ## Lists of lanes -/

/-- Writing one register of a row of slots changes the slots of that register only. -/
theorem writeRegister_eq (slots : List k.Lane) (r : Reg B k) (position : Nat) :
    writeRegister slots (r, position)
      = slots.take (position * B.lanes) ++ r.toList ++ slots.drop ((position + 1) * B.lanes) := by
  rw [writeRegister, Reg.intoFront, List.drop_drop, List.append_assoc, Nat.succ_mul]

/-- By induction on the registers, which are counted from any position on: the slots in front of it
are done. -/
theorem foldl_writeRegister (regs : List (Reg B k)) (position : Nat) (slots : List k.Lane)
    (h : slots.length = position * B.lanes + regs.length * B.lanes) :
    (regs.zipIdx position).foldl writeRegister slots
      = slots.take (position * B.lanes) ++ regs.flatMap Reg.toList := by
  induction regs generalizing position slots with
  | nil =>
    rw [List.length_nil, Nat.zero_mul, Nat.add_zero] at h
    rw [← h, List.take_length, List.flatMap_nil, List.append_nil]
    rfl
  | cons r regs ih =>
    rw [List.length_cons, Nat.succ_mul] at h
    have hdone : (slots.take (position * B.lanes) ++ r.toList).length
        = (position + 1) * B.lanes := by
      rw [List.length_append, List.length_take, Reg.length_toList, Nat.succ_mul]
      omega
    rw [List.zipIdx_cons, List.foldl_cons, writeRegister_eq, ih, List.take_left' hdone,
      List.flatMap_cons, List.append_assoc]
    rw [List.length_append, hdone, List.length_drop, Nat.succ_mul]
    omega

/-- The list of a batch has the lanes of its registers one after the other. -/
theorem toList_eq_flatMap (b : Batch B k n) : b.toList = b.regs.toList.flatMap Reg.toList := by
  rw [toList, foldl_writeRegister _ 0 _ (by simp [width]), Nat.zero_mul, List.take_zero,
    List.nil_append]

/-! ## Register by register -/

theorem lane_mapRegs {k' : Kind} (f : Reg B k → Reg B k') (b : Batch B k n)
    (i : Fin (width B n)) :
    (b.mapRegs f).lane i = (f (b.regs.get (registerOf i))).lane (placeOf i) := by
  have h : (b.mapRegs f).regs.get (registerOf i) = f (b.regs.get (registerOf i)) :=
    Vector.getElem_map _ _
  rw [lane, h]

theorem lane_zipRegs {k' k'' : Kind} (f : Reg B k → Reg B k' → Reg B k'') (a : Batch B k n)
    (b : Batch B k' n) (i : Fin (width B n)) :
    (zipRegs f a b).lane i
      = (f (a.regs.get (registerOf i)) (b.regs.get (registerOf i))).lane (placeOf i) := by
  have h : (zipRegs f a b).regs.get (registerOf i)
      = f (a.regs.get (registerOf i)) (b.regs.get (registerOf i)) :=
    Vector.getElem_zipWith _
  rw [lane, h]

/-- A masked assignment writes exactly the lanes where the mask is true. -/
@[simp] theorem lane_assignMasked (b : Batch B k n) (mask : Mask B n) (source : Batch B k n)
    (i : Fin (width B n)) :
    (b.assignMasked mask source).lane i = if mask.lane i then source.lane i else b.lane i := by
  have h : (b.assignMasked mask source).regs.get (registerOf i)
      = Reg.select (mask.regs.get (registerOf i)) (source.regs.get (registerOf i))
        (b.regs.get (registerOf i)) :=
    Vector.getElem_ofFn _
  rw [lane, h, Reg.lane_select]
  rfl

end Batch

namespace Mask

variable {B : Backend} {n : Nat}

/-! ## Masks -/

@[simp] theorem lane_and (a b : Mask B n) (i : Fin (Batch.width B n)) :
    (a &&& b).lane i = (a.lane i && b.lane i) :=
  (Batch.lane_zipRegs _ a b i).trans (Reg.lane_maskAnd _ _ _)

@[simp] theorem lane_or (a b : Mask B n) (i : Fin (Batch.width B n)) :
    (a ||| b).lane i = (a.lane i || b.lane i) :=
  (Batch.lane_zipRegs _ a b i).trans (Reg.lane_maskOr _ _ _)

@[simp] theorem lane_xor (a b : Mask B n) (i : Fin (Batch.width B n)) :
    (a ^^^ b).lane i = (a.lane i ^^ b.lane i) :=
  (Batch.lane_zipRegs _ a b i).trans (Reg.lane_maskXor _ _ _)

@[simp] theorem lane_not (a : Mask B n) (i : Fin (Batch.width B n)) :
    (~~~a).lane i = !a.lane i :=
  (Batch.lane_mapRegs _ a i).trans (Reg.lane_maskNot _ _)

/-- Some lane is true. -/
theorem any_eq_true {m : Mask B n} : m.any = true ↔ ∃ i, m.lane i = true := by
  rw [any, Vector.any_eq_true]
  constructor
  · rintro ⟨r, hr, h⟩
    obtain ⟨j, h⟩ := Reg.any_eq_true.1 h
    exact ⟨Batch.laneAt ⟨r, hr⟩ j, by rwa [Batch.lane_laneAt]⟩
  · rintro ⟨i, h⟩
    exact ⟨Batch.registerOf i, (Batch.registerOf i).isLt,
      Reg.any_eq_true.2 ⟨Batch.placeOf i, h⟩⟩

/-- Every lane is true. -/
theorem all_eq_true {m : Mask B n} : m.all = true ↔ ∀ i, m.lane i = true := by
  rw [all, Vector.all_eq_true]
  constructor
  · intro h i
    exact Reg.all_eq_true.1 (h (Batch.registerOf i) (Batch.registerOf i).isLt) (Batch.placeOf i)
  · intro h r hr
    refine Reg.all_eq_true.2 fun j => ?_
    have h := h (Batch.laneAt ⟨r, hr⟩ j)
    rwa [Batch.lane_laneAt] at h

end Mask

end Wavefront
