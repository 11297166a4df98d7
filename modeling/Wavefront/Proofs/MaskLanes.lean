import Wavefront.WriteMask
import Wavefront.Batch.Lanes

/-!
# The lanes of a write mask

A write mask is read one lane at a time: a lane is *active* (`IsActive`), *retired* (`IsRetired`),
or waits in the frames. Every move is described here by what it does to a single lane, and no later
proof opens a move again.

* `push`, `restrict` and `retire` only take lanes away from the active ones. `flip` and `pop` do not
  undo that: they compute the active lanes anew, from the parent of the innermost frame.
* What keeps the two apart is that they leave out the retired lanes. So a mask stays `Separate`,
  with no lane both active and retired, under every move.
-/

namespace Wavefront.WriteMask

variable {B : Backend} {n : Nat} {w : WriteMask B n} {frame : Frame B n}
  {frames : List (Frame B n)} {cond : Mask B n} {i : Fin (Batch.width B n)}

/-- Writes reach the lane. -/
def IsActive (w : WriteMask B n) (i : Fin (Batch.width B n)) : Prop := w.active.lane i = true

/-- The lane left the innermost loop, or left for good outside of any. -/
def IsRetired (w : WriteMask B n) (i : Fin (Batch.width B n)) : Prop := w.retired.lane i = true

instance : Decidable (w.IsActive i) := inferInstanceAs (Decidable (_ = _))

instance : Decidable (w.IsRetired i) := inferInstanceAs (Decidable (_ = _))

/-- No lane is both active and retired. -/
def Separate (w : WriteMask B n) : Prop := ∀ i, w.IsActive i → ¬w.IsRetired i

/-- Some lane is active exactly when the reduction says so. -/
theorem anyActive_eq_true : w.anyActive = true ↔ ∃ i, w.IsActive i := Mask.any_eq_true

/-- Assignment writes the active lanes. -/
theorem lane_assign {k : Kind} (target source : Batch B k n) :
    (w.assign target source).lane i = if w.IsActive i then source.lane i else target.lane i :=
  Batch.lane_assignMasked target w.active source i

/-! ## A fresh mask -/

theorem isActive_fresh : (fresh : WriteMask B n).IsActive i := by
  rw [IsActive, fresh, Batch.lane_splat]

theorem not_isRetired_fresh : ¬(fresh : WriteMask B n).IsRetired i := by
  rw [IsRetired, fresh, Batch.lane_splat]
  exact Bool.false_ne_true

/-! ## Opening, switching and closing -/

theorem isActive_push : (w.push cond).IsActive i ↔ w.IsActive i ∧ cond.lane i = true := by
  rw [IsActive, push, Mask.lane_and, Bool.and_eq_true]
  rfl

@[simp] theorem isRetired_push : (w.push cond).IsRetired i ↔ w.IsRetired i := Iff.rfl

@[simp] theorem frames_push : (w.push cond).frames = ⟨w.active, cond⟩ :: w.frames := rfl

theorem flip_of_frames_nil (h : w.frames = []) : w.flip = w := by
  simp only [flip, h]

@[simp] theorem retired_flip : w.flip.retired = w.retired := by
  rw [flip]
  split <;> rfl

@[simp] theorem isRetired_flip : w.flip.IsRetired i ↔ w.IsRetired i := by
  rw [IsRetired, retired_flip, IsRetired]

@[simp] theorem frames_flip : w.flip.frames = w.frames := by
  rw [flip]
  split <;> rfl

/-- The second arm of the innermost conditional is for the lanes of its frame that did not take the
first one, except the retired ones. -/
theorem isActive_flip (h : w.frames = frame :: frames) :
    w.flip.IsActive i ↔
      frame.parent.lane i = true ∧ frame.cond.lane i = false ∧ ¬w.IsRetired i := by
  simp only [IsActive, IsRetired, flip, h, Mask.lane_and, Mask.lane_not, Bool.and_eq_true,
    Bool.not_eq_true', Bool.not_eq_true, and_assoc]

theorem pop_of_frames_nil (h : w.frames = []) : w.pop = w := by
  simp only [pop, h]

@[simp] theorem retired_pop : w.pop.retired = w.retired := by
  rw [pop]
  split <;> rfl

@[simp] theorem isRetired_pop : w.pop.IsRetired i ↔ w.IsRetired i := by
  rw [IsRetired, retired_pop, IsRetired]

@[simp] theorem frames_pop : w.pop.frames = w.frames.tail := by
  rw [pop]
  split
  case h_1 h => rw [h, List.tail_nil]
  case h_2 h => rw [h, List.tail_cons]

/-- All lanes of the frame are active again, except the retired ones. -/
theorem isActive_pop (h : w.frames = frame :: frames) :
    w.pop.IsActive i ↔ frame.parent.lane i = true ∧ ¬w.IsRetired i := by
  simp only [IsActive, IsRetired, pop, h, Mask.lane_and, Mask.lane_not, Bool.and_eq_true,
    Bool.not_eq_true', Bool.not_eq_true]

/-! ## Taking lanes away -/

theorem isActive_retire : (w.retire cond).IsActive i ↔ w.IsActive i ∧ cond.lane i = false := by
  simp only [IsActive, retire, Mask.lane_and, Mask.lane_not, Bool.and_eq_true, Bool.not_eq_true']

theorem isRetired_retire :
    (w.retire cond).IsRetired i ↔ w.IsRetired i ∨ (w.IsActive i ∧ cond.lane i = true) := by
  simp only [IsActive, IsRetired, retire, Mask.lane_or, Mask.lane_and, Bool.or_eq_true,
    Bool.and_eq_true]

@[simp] theorem frames_retire : (w.retire cond).frames = w.frames := rfl

theorem isActive_restrict : (w.restrict cond).IsActive i ↔ w.IsActive i ∧ cond.lane i = true := by
  rw [IsActive, restrict, Mask.lane_and, Bool.and_eq_true]
  rfl

/-! ## Loops -/

/-- A loop starts with the lanes that were active before it. -/
theorem isActive_enterLoop : w.enterLoop.IsActive i ↔ w.IsActive i := by
  rw [enterLoop, isActive_push, Batch.lane_splat, and_iff_left rfl]
  rfl

theorem not_isRetired_enterLoop : ¬w.enterLoop.IsRetired i := by
  rw [enterLoop, isRetired_push, IsRetired, Batch.lane_splat]
  exact Bool.false_ne_true

/-- Where a loop's own frame is the innermost one again, closing the loop gives back the mask it
started from, whatever happened in between. -/
theorem pop_reinstate (hs : w.Separate) {v : WriteMask B n} (h : v.frames = w.enterLoop.frames) :
    (v.reinstate w.retired).pop = w := by
  have hactive : (v.reinstate w.retired).pop.active = w.active := by
    apply Batch.ext_lane
    intro i
    apply Bool.eq_iff_iff.2
    have hi := isActive_pop (w := v.reinstate w.retired) (i := i) h
    exact hi.trans ⟨fun hi => hi.1, fun hi => ⟨hi, hs i hi⟩⟩
  have hretired : (v.reinstate w.retired).pop.retired = w.retired := retired_pop
  have hframes : (v.reinstate w.retired).pop.frames = w.frames := by
    rw [frames_pop]
    exact congrArg List.tail h
  generalize (v.reinstate w.retired).pop = u at hactive hretired hframes
  cases u; cases w; cases hactive; cases hretired; cases hframes; rfl

/-! ## Active lanes are not retired -/

theorem separate_fresh : (fresh : WriteMask B n).Separate := fun _ _ => not_isRetired_fresh

theorem Separate.push (h : w.Separate) : (w.push cond).Separate := by
  intro i hi
  exact h i (isActive_push.1 hi).1

theorem Separate.flip (h : w.Separate) : w.flip.Separate := by
  intro i hi
  rw [isRetired_flip]
  rcases hw : w.frames with _ | ⟨frame, frames⟩
  · rw [flip_of_frames_nil hw] at hi
    exact h i hi
  · exact ((isActive_flip hw).1 hi).2.2

theorem Separate.pop (h : w.Separate) : w.pop.Separate := by
  intro i hi
  rw [isRetired_pop]
  rcases hw : w.frames with _ | ⟨frame, frames⟩
  · rw [pop_of_frames_nil hw] at hi
    exact h i hi
  · exact ((isActive_pop hw).1 hi).2

theorem Separate.retire (h : w.Separate) : (w.retire cond).Separate := by
  intro i hi hr
  obtain ⟨hi, hc⟩ := isActive_retire.1 hi
  rcases isRetired_retire.1 hr with hr | ⟨-, hc'⟩
  · exact h i hi hr
  · exact Bool.false_ne_true (hc.symm.trans hc')

theorem Separate.restrict (h : w.Separate) : (w.restrict cond).Separate := by
  intro i hi
  exact h i (isActive_restrict.1 hi).1

theorem separate_enterLoop : w.enterLoop.Separate := fun _ _ => not_isRetired_enterLoop

end Wavefront.WriteMask
