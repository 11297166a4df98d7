import Wavefront.Proofs.MaskLanes

/-!
# Sequences of moves

The four moves of a write mask as data, so that a history is a list of them. Nothing asks for
balance: a list may switch or close conditionals that were never opened.

* `Meets step P a l`: somewhere along the run of `l` from `a`, the state and the step that is about
  to be taken are as `P` says. It is how a statement speaks about the past.
* `isRetired_moves`: the retired lanes after a history are those retired before it and those that
  some `retire` of the history took out (`Move.TakesOut`). So the mask forgets nothing of them.
-/

namespace Wavefront

/-! ## Runs -/

section Meets

variable {α β : Type} {step : α → β → α} {P : α → β → Prop} {a : α} {b : β} {l l' : List β}

/-- Somewhere along the run of a list, the state and the step about to be taken are as `P` says. -/
def Meets (step : α → β → α) (P : α → β → Prop) (a : α) (l : List β) : Prop :=
  ∃ earlier b later, l = earlier ++ b :: later ∧ P (earlier.foldl step a) b

theorem not_meets_nil : ¬Meets step P a [] := by
  rintro ⟨earlier, b, later, h, -⟩
  exact List.cons_ne_nil _ _ (List.append_eq_nil_iff.1 h.symm).2

theorem meets_cons : Meets step P a (b :: l) ↔ P a b ∨ Meets step P (step a b) l := by
  constructor
  · rintro ⟨earlier, c, later, h, hP⟩
    rcases earlier with _ | ⟨b', earlier⟩
    · obtain ⟨rfl, -⟩ := List.cons.inj h
      exact .inl hP
    · obtain ⟨rfl, rfl⟩ := List.cons.inj h
      exact .inr ⟨earlier, c, later, rfl, hP⟩
  · rintro (hP | ⟨earlier, c, later, rfl, hP⟩)
    · exact ⟨[], b, l, rfl, hP⟩
    · exact ⟨b :: earlier, c, later, rfl, hP⟩

end Meets

namespace WriteMask

variable {B : Backend} {n : Nat}

/-! ## Moves -/

/-- A move of a write mask. -/
inductive Move (B : Backend) (n : Nat)
  | push (cond : Mask B n)
  | flip
  | pop
  | retire (cond : Mask B n)

/-- The mask after a move. -/
def move (w : WriteMask B n) : Move B n → WriteMask B n
  | .push cond => w.push cond
  | .flip => w.flip
  | .pop => w.pop
  | .retire cond => w.retire cond

/-- The mask after a history. -/
def moves (w : WriteMask B n) (ms : List (Move B n)) : WriteMask B n := ms.foldl move w

namespace Move

/-- The move opens a conditional. -/
def opens : Move B n → Bool
  | push _ => true
  | _ => false

/-- The move closes a conditional of the mask: a `pop` that finds a frame. -/
def closes (w : WriteMask B n) : Move B n → Bool
  | pop => !w.frames.isEmpty
  | _ => false

/-- The move retires the lane: a `retire` while the lane is active, with a true condition. -/
def TakesOut (w : WriteMask B n) (i : Fin (Batch.width B n)) : Move B n → Prop
  | retire cond => w.IsActive i ∧ cond.lane i = true
  | _ => False

end Move

variable {w : WriteMask B n} {m : Move B n} {i : Fin (Batch.width B n)}

theorem Separate.move (h : w.Separate) : (w.move m).Separate := by
  cases m with
  | push cond => exact h.push
  | flip => exact h.flip
  | pop => exact h.pop
  | retire cond => exact h.retire

theorem isRetired_move : (w.move m).IsRetired i ↔ w.IsRetired i ∨ m.TakesOut w i := by
  cases m with
  | push cond => exact isRetired_push.trans (or_iff_left not_false).symm
  | flip => exact isRetired_flip.trans (or_iff_left not_false).symm
  | pop => exact isRetired_pop.trans (or_iff_left not_false).symm
  | retire cond => exact isRetired_retire

/-! ## Histories -/

/-- Some `retire` of the history found the lane active and its condition true. -/
def RetiredBy (w : WriteMask B n) (ms : List (Move B n)) (i : Fin (Batch.width B n)) : Prop :=
  Meets move (fun w m => m.TakesOut w i) w ms

theorem not_retiredBy_nil : ¬w.RetiredBy [] i := not_meets_nil

theorem retiredBy_cons {ms : List (Move B n)} :
    w.RetiredBy (m :: ms) i ↔ m.TakesOut w i ∨ (w.move m).RetiredBy ms i :=
  meets_cons

theorem Separate.moves (h : w.Separate) (ms : List (Move B n)) : (w.moves ms).Separate := by
  induction ms generalizing w with
  | nil => exact h
  | cons m ms ih => exact ih h.move

theorem isRetired_moves (ms : List (Move B n)) :
    (w.moves ms).IsRetired i ↔ w.IsRetired i ∨ w.RetiredBy ms i := by
  induction ms generalizing w with
  | nil => exact (or_iff_left not_retiredBy_nil).symm
  | cons m ms ih =>
    have h := ih (w := w.move m)
    rw [isRetired_move, or_assoc, ← retiredBy_cons] at h
    exact h

/-! ## Depth -/

/-- How many moves of a history close a conditional. -/
def closings (w : WriteMask B n) : List (Move B n) → Nat
  | [] => 0
  | m :: ms => (m.closes w).toNat + closings (w.move m) ms

/-- One move opens or closes at most one conditional. -/
theorem depth_move : (w.move m).depth + (m.closes w).toNat = w.depth + m.opens.toNat := by
  cases m with
  | push cond => rfl
  | flip => exact congrArg (List.length · + 0) frames_flip
  | retire cond => rfl
  | pop =>
    have h : (w.move .pop).depth = w.frames.tail.length := congrArg List.length frames_pop
    rw [h, Move.closes, depth]
    rcases w.frames with _ | ⟨frame, frames⟩ <;> rfl

/-- The depth is the openings less the closings. -/
theorem depth_moves (ms : List (Move B n)) :
    (w.moves ms).depth + w.closings ms = w.depth + ms.countP Move.opens := by
  induction ms generalizing w with
  | nil => rfl
  | cons m ms ih =>
    have hm := depth_move (w := w) (m := m)
    have h : (w.moves (m :: ms)).depth + (w.move m).closings ms
        = (w.move m).depth + ms.countP Move.opens := ih
    rw [closings, List.countP_cons]
    cases hopens : m.opens
    · rw [hopens, Bool.toNat_false] at hm
      rw [if_neg Bool.false_ne_true]
      omega
    · rw [hopens, Bool.toNat_true] at hm
      rw [if_pos rfl]
      omega

end WriteMask

end Wavefront
