import Wavefront.Register

/-!
# The lanes of registers

`Reg.lane` is the one view of a register: registers with the same lanes are the same (`ext_lane`),
and each operation that does not compute is described by the lanes of its result. The lemmas on
masks say that the unit's bit moves and plain Boolean logic are the same thing, lane by lane.
-/

namespace Wavefront.Reg

variable {B : Backend} {k : Kind}

/-- The scalar backend has lane 0 only. -/
theorem scalar_lane_eq (i : Fin Backend.scalar.lanes) : i = ⟨0, by decide⟩ :=
  Fin.ext (Nat.lt_one_iff.1 i.isLt)

/-- Registers with the same lanes are the same. -/
theorem ext_lane {a b : Reg B k} (h : ∀ i, a.lane i = b.lane i) : a = b := by
  match B, k with
  | .scalar, _ => exact h ⟨0, by decide⟩
  | .quad, .number t =>
    apply Quad.ext_get
    intro i
    have h : t.toWord (t.ofWord (Vector.get a i)) = t.toWord (t.ofWord (Vector.get b i)) :=
      congrArg t.toWord (h i)
    rwa [Number.toWord_ofWord, Number.toWord_ofWord] at h
  | .quad, .bool => exact QuadMask.ext_lane h

/-! ## Building -/

@[simp] theorem lane_ofFn (f : Fin B.lanes → k.Lane) (i : Fin B.lanes) :
    (ofFn f : Reg B k).lane i = f i := by
  match B, k with
  | .scalar, _ => rw [scalar_lane_eq i]; rfl
  | .quad, .number t =>
    have h := Vector.getElem_ofFn (f := fun j : Fin 4 => t.toWord (f j)) i.isLt
    exact (congrArg t.ofWord h).trans (t.ofWord_toWord _)
  | .quad, .bool => exact QuadMask.lane_ofFn f i

@[simp] theorem lane_splat (v : k.Lane) (i : Fin B.lanes) : (splat v : Reg B k).lane i = v := by
  match B, k with
  | .scalar, _ => rfl
  | .quad, .number t =>
    have h := Vector.getElem_replicate (a := t.toWord v) i.isLt
    exact (congrArg t.ofWord h).trans (t.ofWord_toWord _)
  | .quad, .bool => exact QuadMask.lane_splat v i

/-- A register is made of its lanes. -/
@[simp] theorem ofFn_lane (r : Reg B k) : ofFn r.lane = r := ext_lane fun i => lane_ofFn _ i

/-! ## Slots -/

@[simp] theorem length_toList (r : Reg B k) : r.toList.length = B.lanes := List.length_ofFn

@[simp] theorem length_emptyBuffer : (emptyBuffer k).length = Backend.maxLanes :=
  List.length_replicate

/-- A buffer has a slot for every lane. -/
theorem lanes_le_emptyBuffer : B.lanes ≤ (emptyBuffer k).length :=
  length_emptyBuffer ▸ B.lanes_le_maxLanes

/-- A register keeps the number of slots that it is written to. -/
theorem length_intoFront (r : Reg B k) {slots : List k.Lane} (h : B.lanes ≤ slots.length) :
    (r.intoFront slots).length = slots.length := by
  rw [intoFront, List.length_append, length_toList, List.length_drop]
  omega

@[simp] theorem lane_ofFront (slots : List k.Lane) (i : Fin B.lanes) :
    (ofFront slots : Reg B k).lane i = slots.getD i.val k.zeroLane := by
  rw [ofFront, lane_ofFn]

/-- What a register wrote to the front of some slots is there. -/
theorem getElem?_intoFront (r : Reg B k) (slots : List k.Lane) (i : Fin B.lanes) :
    (r.intoFront slots)[i.val]? = some (r.lane i) := by
  rw [intoFront, List.getElem?_append_left (by simp), toList, List.getElem?_ofFn, dif_pos i.isLt]

/-- Slots that begin with lanes make the register with these lanes, whatever is behind them. -/
theorem ofFront_append (lanes : Vector k.Lane B.lanes) (rest : List k.Lane) :
    (ofFront (lanes.toList ++ rest) : Reg B k) = ofFn lanes.get := by
  refine congrArg ofFn (funext fun i => ?_)
  rw [List.getD_eq_getElem?_getD, List.getElem?_append_left (by simp), Vector.getElem?_toList,
    Vector.getElem?_eq_getElem i.isLt]
  rfl

@[simp] theorem lane_set (r : Reg B k) (i j : Fin B.lanes) (v : k.Lane) :
    (r.set i v).lane j = if j = i then v else r.lane j := by
  match B with
  | .scalar =>
    rw [if_pos ((scalar_lane_eq j).trans (scalar_lane_eq i).symm)]
    rfl
  | .quad =>
    have hroom : i.val < (r.intoFront (emptyBuffer k)).length := by
      rw [length_intoFront r lanes_le_emptyBuffer]
      exact Nat.lt_of_lt_of_le i.isLt lanes_le_emptyBuffer
    rw [set, lane_ofFront, List.getD_eq_getElem?_getD]
    by_cases h : j = i
    · rw [if_pos h, h, List.getElem?_set_self hroom, Option.getD_some]
    · rw [if_neg h, List.getElem?_set_ne fun hij => h (Fin.ext hij.symm), getElem?_intoFront,
        Option.getD_some]

/-! ## Choice and masks -/

@[simp] theorem lane_select (m : Reg B .bool) (a b : Reg B k) (i : Fin B.lanes) :
    (select m a b).lane i = if m.lane i then a.lane i else b.lane i := by
  match B, k with
  | .scalar, _ => rfl
  | .quad, .number t =>
    have h := congrArg t.ofWord (QuadMask.get_blend m a b i)
    rw [apply_ite t.ofWord] at h
    exact h
  | .quad, .bool => exact QuadMask.lane_select m a b i

@[simp] theorem lane_maskAnd (a b : Reg B .bool) (i : Fin B.lanes) :
    (maskAnd a b).lane i = (a.lane i && b.lane i) := by
  match B with
  | .scalar => rfl
  | .quad => exact QuadMask.lane_and a b i

@[simp] theorem lane_maskOr (a b : Reg B .bool) (i : Fin B.lanes) :
    (maskOr a b).lane i = (a.lane i || b.lane i) := by
  match B with
  | .scalar => rfl
  | .quad => exact QuadMask.lane_or a b i

@[simp] theorem lane_maskXor (a b : Reg B .bool) (i : Fin B.lanes) :
    (maskXor a b).lane i = (a.lane i ^^ b.lane i) := by
  match B with
  | .scalar => rfl
  | .quad => exact QuadMask.lane_xor a b i

@[simp] theorem lane_maskNot (a : Reg B .bool) (i : Fin B.lanes) :
    (maskNot a).lane i = !a.lane i := by
  match B with
  | .scalar => rfl
  | .quad => exact QuadMask.lane_not a i

/-! ## Reductions -/

/-- Some lane is true. -/
theorem any_eq_true {m : Reg B .bool} : any m = true ↔ ∃ i, m.lane i = true := by
  match B with
  | .scalar => exact ⟨fun h => ⟨⟨0, by decide⟩, h⟩, fun ⟨_, h⟩ => h⟩
  | .quad => exact QuadMask.any_eq_true

/-- Every lane is true. -/
theorem all_eq_true {m : Reg B .bool} : all m = true ↔ ∀ i, m.lane i = true := by
  match B with
  | .scalar => exact ⟨fun h _ => h, fun h => h ⟨0, by decide⟩⟩
  | .quad => exact QuadMask.all_eq_true

end Wavefront.Reg
