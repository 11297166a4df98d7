import Wavefront.Proofs.Moves

/-!
# Path conditions

Which lanes are active is a property of the history alone. Beside the mask we keep a ghost: for each
open conditional, the `Arm` it is in, which only the moves decide (`arms`). A lane is *on the path*
of the open conditionals when each of their conditions has, on that lane, the value its arm is for.

Main statement: after any history from a fresh mask, the active lanes are those on the path that no
`retire` took out (`isActive_iff_onPath`). The invariant behind it is `Saved`. The parent of a frame
was the active set when the frame was opened, so it may hold lanes that were retired since, but up
to those it is the path of the frames below: `flip` and `pop` may compute the active lanes from it.
-/

namespace Wavefront.WriteMask

variable {B : Backend} {n : Nat}

/-! ## Arms -/

/-- An arm of an open conditional. -/
inductive Arm
  /-- the lanes where the condition holds -/
  | first
  /-- the lanes where it does not -/
  | second
deriving DecidableEq

/-- The value of the condition that an arm is for. -/
def Arm.side : Arm → Bool
  | first => true
  | second => false

/-- The arms of the open conditionals after a move, innermost first. A second switch of the same
conditional stays in its second arm. -/
def armsAfter (arms : List Arm) : Move B n → List Arm
  | .push _ => .first :: arms
  | .flip =>
    match arms with
    | [] => []
    | _ :: arms => .second :: arms
  | .pop => arms.tail
  | .retire _ => arms

/-- The arms of the open conditionals after a history that starts with none open. -/
def arms (ms : List (Move B n)) : List Arm := ms.foldl armsAfter []

/-- Every open condition has, on the lane, the value its arm is for. -/
def OnPath (frames : List (Frame B n)) (arms : List Arm) (i : Fin (Batch.width B n)) : Prop :=
  ∀ branch ∈ frames.zip arms, branch.1.cond.lane i = branch.2.side

variable {w : WriteMask B n} {m : Move B n} {frame : Frame B n} {frames : List (Frame B n)}
  {arm : Arm} {as : List Arm} {i : Fin (Batch.width B n)}

theorem onPath_nil : OnPath ([] : List (Frame B n)) [] i := fun _ h => absurd h List.not_mem_nil

theorem onPath_cons :
    OnPath (frame :: frames) (arm :: as) i ↔ frame.cond.lane i = arm.side ∧ OnPath frames as i := by
  rw [OnPath, List.zip_cons_cons, List.forall_mem_cons]
  rfl

/-! ## The parents of the frames -/

/-- Up to the retired lanes, the parent of every frame is the path of the frames below it. -/
inductive Saved (w : WriteMask B n) : List (Frame B n) → List Arm → Prop
  | nil : Saved w [] []
  | cons {frame : Frame B n} {frames : List (Frame B n)} {arm : Arm} {as : List Arm}
      (parent : ∀ i, ¬w.IsRetired i → (frame.parent.lane i = true ↔ OnPath frames as i))
      (below : Saved w frames as) : Saved w (frame :: frames) (arm :: as)

/-- More retired lanes ask for less. -/
theorem Saved.mono {v : WriteMask B n} (h : Saved w frames as)
    (hr : ∀ i, w.IsRetired i → v.IsRetired i) : Saved v frames as := by
  induction h with
  | nil => exact .nil
  | cons parent _ ih => exact .cons (fun i hi => parent i fun hw => hi (hr i hw)) ih

/-- The mask is where its path says: the ghost has an arm for every frame, the parents are right,
and so are the active lanes. -/
structure Follows (w : WriteMask B n) (as : List Arm) : Prop where
  saved : Saved w w.frames as
  active : ∀ i, w.IsActive i ↔ ¬w.IsRetired i ∧ OnPath w.frames as i

theorem follows_fresh : Follows (fresh : WriteMask B n) [] where
  saved := .nil
  active _ := ⟨fun _ => ⟨not_isRetired_fresh, onPath_nil⟩, fun _ => isActive_fresh⟩

theorem Follows.push {cond : Mask B n} (h : w.Follows as) :
    (w.push cond).Follows (.first :: as) where
  saved := .cons (fun i hi => (h.active i).trans (and_iff_right hi)) (h.saved.mono fun _ hi => hi)
  active i := by
    rw [isActive_push, frames_push, onPath_cons, h.active, isRetired_push, and_assoc]
    exact and_congr_right fun _ => and_comm

theorem Follows.flip (h : w.Follows as) : w.flip.Follows (armsAfter as (.flip : Move B n)) := by
  obtain ⟨saved, active⟩ := h
  cases hw : w.frames with
  | nil =>
    rw [hw] at saved
    cases saved
    rw [flip_of_frames_nil hw]
    exact ⟨hw ▸ .nil, active⟩
  | cons frame frames =>
    rw [hw] at saved
    cases saved with
    | cons parent below =>
      refine ⟨?_, fun i => ?_⟩
      · rw [frames_flip, hw]
        exact .cons (fun i hi => parent i fun hr => hi (isRetired_flip.2 hr))
          (below.mono fun _ hr => isRetired_flip.2 hr)
      · -- a lane that is not retired was on the path when its parent says so
        rw [isActive_flip hw, frames_flip, hw, isRetired_flip]
        refine ⟨fun ⟨hp, hc, hi⟩ => ⟨hi, onPath_cons.2 ⟨hc, (parent i hi).1 hp⟩⟩, ?_⟩
        rintro ⟨hi, hpath⟩
        obtain ⟨hc, hpath⟩ := onPath_cons.1 hpath
        exact ⟨(parent i hi).2 hpath, hc, hi⟩

theorem Follows.pop (h : w.Follows as) : w.pop.Follows as.tail := by
  obtain ⟨saved, active⟩ := h
  cases hw : w.frames with
  | nil =>
    rw [hw] at saved
    cases saved
    rw [pop_of_frames_nil hw]
    exact ⟨hw ▸ .nil, active⟩
  | cons frame frames =>
    rw [hw] at saved
    cases saved with
    | cons parent below =>
      refine ⟨?_, fun i => ?_⟩
      · rw [frames_pop, hw]
        exact below.mono fun _ hr => isRetired_pop.2 hr
      · rw [isActive_pop hw, frames_pop, hw, isRetired_pop, and_comm]
        exact and_congr_right fun hi => parent i hi

theorem Follows.retire {cond : Mask B n} (h : w.Follows as) : (w.retire cond).Follows as where
  saved := h.saved.mono fun _ hr => isRetired_retire.2 (.inl hr)
  active i := by
    have hactive := h.active i
    rw [isActive_retire, isRetired_retire, frames_retire]
    constructor
    · rintro ⟨hi, hc⟩
      obtain ⟨hr, hpath⟩ := hactive.1 hi
      refine ⟨?_, hpath⟩
      rintro (hr' | ⟨-, hc'⟩)
      · exact hr hr'
      · exact Bool.false_ne_true (hc.symm.trans hc')
    · rintro ⟨hr, hpath⟩
      have hi := hactive.2 ⟨fun hr' => hr (.inl hr'), hpath⟩
      exact ⟨hi, Bool.not_eq_true _ ▸ fun hc => hr (.inr ⟨hi, hc⟩)⟩

/-- One move keeps the mask where its path says. -/
theorem Follows.move (h : w.Follows as) : (w.move m).Follows (armsAfter as m) := by
  cases m with
  | push cond => exact h.push
  | flip => exact h.flip
  | pop => exact h.pop
  | retire cond => exact h.retire

/-- So does a history. -/
theorem Follows.moves (h : w.Follows as) (ms : List (Move B n)) :
    (w.moves ms).Follows (ms.foldl armsAfter as) := by
  induction ms generalizing w as with
  | nil => exact h
  | cons m ms ih => exact ih h.move

/-- The ghost has one arm for every frame. -/
theorem Saved.length_eq (h : Saved w frames as) : as.length = frames.length := by
  induction h with
  | nil => rfl
  | cons _ _ ih => exact congrArg Nat.succ ih

/-! ## Nesting -/

/-- Each parent holds the parents above it and the active lanes. -/
structure Nested (w : WriteMask B n) : Prop where
  active : ∀ frame ∈ w.frames, ∀ i, w.IsActive i → frame.parent.lane i = true
  parents : w.frames.Pairwise fun inner outer =>
    ∀ i, inner.parent.lane i = true → outer.parent.lane i = true

theorem nested_fresh : Nested (fresh : WriteMask B n) where
  active _ h := absurd h List.not_mem_nil
  parents := .nil

/-- A mask with fewer active lanes and the same frames. -/
theorem Nested.shrink {v : WriteMask B n} (h : w.Nested) (hf : v.frames = w.frames)
    (ha : ∀ i, v.IsActive i → w.IsActive i) : v.Nested where
  active frame hframe i hi := h.active frame (hf ▸ hframe) i (ha i hi)
  parents := hf ▸ h.parents

theorem Nested.push {cond : Mask B n} (h : w.Nested) : (w.push cond).Nested where
  active := by
    intro frame hframe i hi
    have hi := (isActive_push.1 hi).1
    rcases List.mem_cons.1 hframe with rfl | hframe
    · exact hi
    · exact h.active frame hframe i hi
  parents := List.pairwise_cons.2 ⟨fun frame hframe i hi => h.active frame hframe i hi, h.parents⟩

/-- What only holds lanes of the innermost parent is nested below it. -/
theorem Nested.of_parent {v : WriteMask B n} (h : w.Nested) (hw : w.frames = frame :: frames)
    (ha : ∀ i, v.IsActive i → frame.parent.lane i = true) (below : v.frames = w.frames ∨
      v.frames = frames) : v.Nested := by
  have hparents := h.parents
  rw [hw] at hparents below
  have htop : ∀ frame' ∈ frame :: frames, ∀ i, v.IsActive i → frame'.parent.lane i = true := by
    intro frame' hframe' i hi
    rcases List.mem_cons.1 hframe' with rfl | hframe'
    · exact ha i hi
    · exact (List.pairwise_cons.1 hparents).1 frame' hframe' i (ha i hi)
  rcases below with hv | hv
  · exact ⟨hv ▸ htop, hv ▸ hparents⟩
  · exact ⟨fun frame' hframe' => htop frame' (.tail _ (hv ▸ hframe')), hv ▸ hparents.of_cons⟩

theorem Nested.move (h : w.Nested) : (w.move m).Nested := by
  cases m with
  | push cond => exact h.push
  | retire cond => exact h.shrink rfl fun i hi => (isActive_retire.1 hi).1
  | flip =>
    cases hw : w.frames with
    | nil => exact h.shrink frames_flip fun i hi => flip_of_frames_nil hw ▸ hi
    | cons frame frames =>
      exact h.of_parent hw (fun i hi => ((isActive_flip hw).1 hi).1) (.inl frames_flip)
  | pop =>
    cases hw : w.frames with
    | nil =>
      have hpop := pop_of_frames_nil hw
      exact h.shrink (congrArg frames hpop) fun i hi => hpop ▸ hi
    | cons frame frames =>
      refine h.of_parent hw (fun i hi => ((isActive_pop hw).1 hi).1) (.inr ?_)
      exact frames_pop.trans (congrArg List.tail hw)

theorem Nested.moves (h : w.Nested) (ms : List (Move B n)) : (w.moves ms).Nested := by
  induction ms generalizing w with
  | nil => exact h
  | cons m ms ih => exact ih h.move

/-! ## The closed form -/

/-- After any history from a fresh mask, a lane is active exactly when no `retire` of the history
took it out and it is on the path of the open conditionals. The active and the retired lanes are
apart, the parents are nested, and the depth is the number of openings less that of closings. -/
theorem isActive_iff_onPath (ms : List (Move B n)) :
    let w := (fresh : WriteMask B n).moves ms
    (∀ i, w.IsActive i ↔ ¬fresh.RetiredBy ms i ∧ OnPath w.frames (arms ms) i) ∧
      (arms ms).length = w.frames.length ∧ w.Separate ∧ w.Nested ∧
      w.depth + (fresh : WriteMask B n).closings ms = ms.countP Move.opens := by
  have hfollows : (fresh.moves ms).Follows (arms ms) := follows_fresh.moves ms
  refine ⟨fun i => ?_, hfollows.saved.length_eq, separate_fresh.moves ms, nested_fresh.moves ms, ?_⟩
  · have hretired : (fresh.moves ms).IsRetired i ↔ fresh.RetiredBy ms i :=
      (isRetired_moves ms).trans (or_iff_right not_isRetired_fresh)
    rw [hfollows.active i, hretired]
  · exact (depth_moves ms).trans (Nat.zero_add _)

end Wavefront.WriteMask
