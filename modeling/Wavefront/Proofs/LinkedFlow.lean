import Mathlib.Data.List.Forall2
import Wavefront.Flow
import Wavefront.Proofs.Link

/-!
# Structured control flow keeps links

Two flows are linked when their write masks are, their states are related and their logs are the
same. If the link compares all lanes, then linked write masks have active lanes together, so linked
flows skip the same arms and loop for the same number of turns: code that keeps flows linked
(`Keeps`) may be put under a branch (`Keeps.branch`) or into a loop (`Keeps.repeatWhile`).
-/

namespace Wavefront.Link

variable {B B' : Backend} {n n' : Nat} {L : Link B n B' n'}

/-! ## Write masks -/

/-- Conditionals that were opened on linked lanes. -/
structure Frames (L : Link B n B' n') (f : Frame B n) (f' : Frame B' n') : Prop where
  parent : L.Batches f.parent f'.parent
  cond : L.Batches f.cond f'.cond

/-- Linked lanes are active, retired and in each frame. -/
structure WriteMasks (L : Link B n B' n') (w : WriteMask B n) (w' : WriteMask B' n') : Prop where
  active : L.Batches w.active w'.active
  retired : L.Batches w.retired w'.retired
  frames : List.Forall₂ L.Frames w.frames w'.frames

section Masks

variable {w : WriteMask B n} {w' : WriteMask B' n'} {cond : Mask B n} {cond' : Mask B' n'}

theorem batches_bool (b : Bool) :
    L.Batches (Batch.splat b : Mask B n) (Batch.splat b : Mask B' n') :=
  batches_splat (k := .bool) b

theorem writeMasks_fresh : L.WriteMasks WriteMask.fresh WriteMask.fresh :=
  ⟨batches_bool _, batches_bool _, .nil⟩

theorem WriteMasks.depth_eq (h : L.WriteMasks w w') : w.depth = w'.depth := h.frames.length_eq

theorem WriteMasks.anyActive_eq (h : L.WriteMasks w w') (hL : L.Total) :
    w.anyActive = w'.anyActive := hL.any_eq h.active

theorem WriteMasks.push (h : L.WriteMasks w w') (hc : L.Batches cond cond') :
    L.WriteMasks (w.push cond) (w'.push cond') :=
  ⟨h.active.maskAnd hc, h.retired, .cons ⟨h.active, hc⟩ h.frames⟩

theorem WriteMasks.flip (h : L.WriteMasks w w') : L.WriteMasks w.flip w'.flip := by
  obtain ⟨active, retired, frames⟩ := w
  obtain ⟨active', retired', frames'⟩ := w'
  obtain ⟨hactive, hretired, hframes⟩ := h
  cases hframes with
  | nil => exact ⟨hactive, hretired, .nil⟩
  | cons hframe hframes =>
    exact ⟨(hframe.parent.maskAnd hframe.cond.maskNot).maskAnd hretired.maskNot, hretired,
      .cons hframe hframes⟩

theorem WriteMasks.pop (h : L.WriteMasks w w') : L.WriteMasks w.pop w'.pop := by
  obtain ⟨active, retired, frames⟩ := w
  obtain ⟨active', retired', frames'⟩ := w'
  obtain ⟨hactive, hretired, hframes⟩ := h
  cases hframes with
  | nil => exact ⟨hactive, hretired, .nil⟩
  | cons hframe hframes =>
    exact ⟨hframe.parent.maskAnd hretired.maskNot, hretired, hframes⟩

theorem WriteMasks.retire (h : L.WriteMasks w w') (hc : L.Batches cond cond') :
    L.WriteMasks (w.retire cond) (w'.retire cond') :=
  ⟨h.active.maskAnd hc.maskNot, h.retired.maskOr (h.active.maskAnd hc), h.frames⟩

theorem WriteMasks.restrict (h : L.WriteMasks w w') (hc : L.Batches cond cond') :
    L.WriteMasks (w.restrict cond) (w'.restrict cond') :=
  ⟨h.active.maskAnd hc, h.retired, h.frames⟩

theorem WriteMasks.reinstate (h : L.WriteMasks w w') (hc : L.Batches cond cond') :
    L.WriteMasks (w.reinstate cond) (w'.reinstate cond') := ⟨h.active, hc, h.frames⟩

theorem WriteMasks.enterLoop (h : L.WriteMasks w w') : L.WriteMasks w.enterLoop w'.enterLoop :=
  (h.reinstate (batches_bool false)).push (batches_bool true)

end Masks

/-! ## Flows -/

section Flows

variable {σ σ' : Type} {R : σ → σ' → Prop}

/-- Linked write masks, related states and the same log. -/
structure Flows (L : Link B n B' n') (R : σ → σ' → Prop) (f : Flow B n σ) (f' : Flow B' n' σ') :
    Prop where
  mask : L.WriteMasks f.mask f'.mask
  state : R f.state f'.state
  log : f.log = f'.log

variable {f : Flow B n σ} {f' : Flow B' n' σ'} {cond : Mask B n} {cond' : Mask B' n'}

theorem Flows.note (h : L.Flows R f f') (e : Event) : L.Flows R (f.note e) (f'.note e) :=
  ⟨h.mask, h.state, congrArg (· ++ [e]) h.log⟩

theorem Flows.push (h : L.Flows R f f') (hc : L.Batches cond cond') :
    L.Flows R (f.push cond) (f'.push cond') := ⟨h.mask.push hc, h.state, h.log⟩

theorem Flows.restrict (h : L.Flows R f f') (hc : L.Batches cond cond') :
    L.Flows R (f.restrict cond) (f'.restrict cond') := ⟨h.mask.restrict hc, h.state, h.log⟩

theorem Flows.flip (h : L.Flows R f f') : L.Flows R f.flip f'.flip := by
  rw [Flow.flip, Flow.flip, h.mask.depth_eq]
  split
  · exact h.note _
  · exact ⟨h.mask.flip, h.state, h.log⟩

theorem Flows.pop (h : L.Flows R f f') : L.Flows R f.pop f'.pop := by
  rw [Flow.pop, Flow.pop, h.mask.depth_eq]
  split
  · exact h.note _
  · exact ⟨h.mask.pop, h.state, h.log⟩

/-! ## Code -/

/-- Two answers that are related, or none of both. -/
theorem rel_bind {α α' β β' : Type} {R : α → α' → Prop} {S : β → β' → Prop} {x : Option α}
    {x' : Option α'} {g : α → Option β} {g' : α' → Option β'} (h : Option.Rel R x x')
    (hg : ∀ a a', R a a' → Option.Rel S (g a) (g' a')) :
    Option.Rel S (x >>= g) (x' >>= g') := by
  cases h with
  | none => exact .none
  | some h => exact hg _ _ h

/-- Two pieces of code that lead from linked flows to linked flows, or both have no answer. -/
def Keeps (L : Link B n B' n') (R : σ → σ' → Prop) (code : Flow B n σ → Option (Flow B n σ))
    (code' : Flow B' n' σ' → Option (Flow B' n' σ')) : Prop :=
  ∀ f f', L.Flows R f f' → Option.Rel (L.Flows R) (code f) (code' f')

variable {code first second body : Flow B n σ → Option (Flow B n σ)}
  {code' first' second' body' : Flow B' n' σ' → Option (Flow B' n' σ')}

/-- Code is run on both sides or on none. -/
theorem Keeps.whenActive (h : L.Keeps R code code') (hL : L.Total) :
    L.Keeps R (fun f => f.whenActive code) (fun f => f.whenActive code') := by
  intro f f' hf
  simp only [Flow.whenActive, hf.mask.anyActive_eq hL]
  split
  · exact h f f' hf
  · exact .some hf

theorem Keeps.branch (h₁ : L.Keeps R first first') (h₂ : L.Keeps R second second') (hL : L.Total)
    (hc : L.Batches cond cond') :
    L.Keeps R (Flow.branch cond first second) (Flow.branch cond' first' second') :=
  fun _ _ hf => rel_bind (h₁.whenActive hL _ _ (hf.push hc)) fun _ _ hf =>
    rel_bind (h₂.whenActive hL _ _ hf.flip) fun _ _ hf => .some hf.pop

/-- Loops take the same turns. By induction on the fuel, for any number of turns already taken. -/
theorem Keeps.turns {cond : σ → Mask B n} {cond' : σ' → Mask B' n'} (hbody : L.Keeps R body body')
    (hL : L.Total) (hc : ∀ s s', R s s' → L.Batches (cond s) (cond' s')) (fuel : Nat)
    (taken : Nat) (hf : L.Flows R f f') :
    Option.Rel (fun r r' => L.Flows R r.1 r'.1 ∧ r.2 = r'.2) (Flow.turns cond body fuel taken f)
      (Flow.turns cond' body' fuel taken f') := by
  induction fuel generalizing f f' taken with
  | zero =>
    have hf := hf.restrict (hc _ _ hf.state)
    rw [Flow.turns, Flow.turns, hf.mask.anyActive_eq hL]
    split
    · exact .none
    · exact .some ⟨hf, rfl⟩
  | succ fuel ih =>
    have hf := hf.restrict (hc _ _ hf.state)
    rw [Flow.turns, Flow.turns, hf.mask.anyActive_eq hL]
    split
    · exact rel_bind (hbody _ _ hf) fun _ _ hg => ih (taken + 1) hg
    · exact .some ⟨hf, rfl⟩

theorem Keeps.repeatWhile {cond : σ → Mask B n} {cond' : σ' → Mask B' n'}
    (hbody : L.Keeps R body body') (hL : L.Total)
    (hc : ∀ s s', R s s' → L.Batches (cond s) (cond' s')) (fuel : Nat) :
    L.Keeps R (Flow.repeatWhile fuel cond body) (Flow.repeatWhile fuel cond' body') := by
  intro f f' hf
  refine rel_bind (hbody.turns hL hc fuel 0 ⟨hf.mask.enterLoop, hf.state, hf.log⟩) ?_
  rintro ⟨g, taken⟩ ⟨g', _⟩ ⟨hg, rfl⟩
  have hg := hg.note (.loopFinished taken)
  exact .some (Flows.pop ⟨hg.mask.reinstate hf.mask.retired, hg.state, hg.log⟩)

end Flows

end Wavefront.Link
