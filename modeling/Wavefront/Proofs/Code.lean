import Wavefront.Flow
import Wavefront.Proofs.MaskLanes

/-!
# Code on a flow

Whatever lock-step code does, to its write mask it only makes moves, branches and loops. `Code` is
that skeleton as data. Everything else, masked assignment among it, is an `update` of the state, and
conditions may be any function of what the code can see. `Code.run` runs it by the operations of
`Flow`, so a statement about all code is a statement about `Flow.branch` and `Flow.repeatWhile` with
all arms and bodies.

* `Code.depthAfter` counts the conditionals that a piece of code has opened itself and not closed,
  if it never switches or closes one that it did not open. Code is *balanced* (`Balanced`) when it
  ends with none: it is made of updates, retirements, branches, loops and well-nested groups.
* `branch_eq_some` and `turns_induction` are the two ways into a run. The second is the loop rule:
  what holds on entry and is kept by every turn still holds when no lane wants another turn.
-/

namespace Wavefront

/-! ## Branches and loops of a flow -/

namespace Flow

variable {B : Backend} {n : Nat} {σ : Type} {f g : Flow B n σ}

/-- Without an open conditional the flow only adds to its log, and the mask does not move. -/
@[simp] theorem mask_flip : f.flip.mask = f.mask.flip := by
  rw [flip]
  split
  case isTrue h => exact (WriteMask.flip_of_frames_nil (List.eq_nil_of_length_eq_zero h)).symm
  case isFalse => rfl

@[simp] theorem state_flip : f.flip.state = f.state := by
  rw [flip]
  split <;> rfl

@[simp] theorem mask_pop : f.pop.mask = f.mask.pop := by
  rw [pop]
  split
  case isTrue h => exact (WriteMask.pop_of_frames_nil (List.eq_nil_of_length_eq_zero h)).symm
  case isFalse => rfl

@[simp] theorem state_pop : f.pop.state = f.state := by
  rw [pop]
  split <;> rfl

/-- Code that was asked to run either found no active lane and did nothing, or ran. -/
theorem whenActive_eq_some {code : Flow B n σ → Option (Flow B n σ)}
    (h : f.whenActive code = some g) :
    (¬(∃ i, f.mask.IsActive i) ∧ g = f) ∨ ((∃ i, f.mask.IsActive i) ∧ code f = some g) := by
  rw [whenActive] at h
  split at h
  case isTrue ha => exact .inr ⟨WriteMask.anyActive_eq_true.1 ha, h⟩
  case isFalse ha =>
    exact .inl ⟨fun hi => ha (WriteMask.anyActive_eq_true.2 hi), (Option.some.inj h).symm⟩

/-- A branch ends where its second arm does, which starts where the first one ended. -/
theorem branch_eq_some {cond : Mask B n} {first second : Flow B n σ → Option (Flow B n σ)} :
    f.branch cond first second = some g ↔
      ∃ f₁ f₂, (f.push cond).whenActive first = some f₁ ∧ f₁.flip.whenActive second = some f₂ ∧
        g = f₂.pop := by
  constructor
  · intro h
    obtain ⟨f₁, h₁, h⟩ := Option.bind_eq_some_iff.1 h
    obtain ⟨f₂, h₂, h⟩ := Option.bind_eq_some_iff.1 h
    exact ⟨f₁, f₂, h₁, h₂, (Option.some.inj h).symm⟩
  · rintro ⟨f₁, f₂, h₁, h₂, rfl⟩
    exact Option.bind_eq_some_iff.2 ⟨f₁, h₁, Option.bind_eq_some_iff.2 ⟨f₂, h₂, rfl⟩⟩

/-- What holds when a loop starts and is kept by every turn holds of some flow in which no lane
wants another turn, and there the loop ends. -/
theorem turns_induction {cond : σ → Mask B n} {body : Flow B n σ → Option (Flow B n σ)}
    (P : Flow B n σ → Prop)
    (turn : ∀ f g, P f → body (f.restrict (cond f.state)) = some g → P g) {fuel taken : Nat}
    {r : Flow B n σ × Nat} (h : turns cond body fuel taken f = some r) (hf : P f) :
    ∃ last, P last ∧ r.1 = last.restrict (cond last.state) ∧ r.1.mask.anyActive = false := by
  induction fuel generalizing f taken with
  | zero =>
    rw [turns] at h
    split at h
    case isTrue => cases h
    case isFalse ha =>
      obtain rfl := Option.some.inj h
      exact ⟨f, hf, rfl, Bool.not_eq_true _ ▸ ha⟩
  | succ fuel ih =>
    rw [turns] at h
    split at h
    case isTrue =>
      obtain ⟨g, hg, h⟩ := Option.bind_eq_some_iff.1 h
      exact ih h (turn f g hf hg)
    case isFalse ha =>
      obtain rfl := Option.some.inj h
      exact ⟨f, hf, rfl, Bool.not_eq_true _ ▸ ha⟩

/-- A loop is its turns, from the entered mask, and then the way out. -/
theorem repeatWhile_eq_some {cond : σ → Mask B n} {body : Flow B n σ → Option (Flow B n σ)}
    {fuel : Nat} :
    f.repeatWhile fuel cond body = some g ↔
      ∃ r, turns cond body fuel 0 { f with mask := f.mask.enterLoop } = some r ∧
        g = Flow.pop ⟨r.1.mask.reinstate f.mask.retired, r.1.state,
          r.1.log ++ [.loopFinished r.2]⟩ := by
  constructor
  · intro h
    obtain ⟨r, hr, h⟩ := Option.bind_eq_some_iff.1 h
    exact ⟨r, hr, (Option.some.inj h).symm⟩
  · rintro ⟨r, hr, rfl⟩
    exact Option.bind_eq_some_iff.2 ⟨r, hr, rfl⟩

end Flow

/-! ## Code -/

/-- Lock-step code, as far as its write mask goes. -/
inductive Code (B : Backend) (n : Nat) (σ : Type)
  | skip
  /-- any change of the state: it may look at the write mask but does not move it -/
  | update (change : WriteMask B n → σ → σ)
  | push (cond : WriteMask B n → σ → Mask B n)
  | flip
  | pop
  | retire (cond : WriteMask B n → σ → Mask B n)
  | seq (first second : Code B n σ)
  | branch (cond : WriteMask B n → σ → Mask B n) (first second : Code B n σ)
  /-- the condition is asked again before every turn -/
  | loop (cond : σ → Mask B n) (body : Code B n σ)

namespace Code

variable {B : Backend} {n : Nat} {σ : Type}

/-- Runs code on a flow. The fuel bounds the turns of every loop; `none` is a loop that wants
more. -/
def run (fuel : Nat) : Code B n σ → Flow B n σ → Option (Flow B n σ)
  | skip, f => some f
  | update change, f => some { f with state := change f.mask f.state }
  | push cond, f => some (f.push (cond f.mask f.state))
  | flip, f => some f.flip
  | pop, f => some f.pop
  | retire cond, f => some { f with mask := f.mask.retire (cond f.mask f.state) }
  | seq first second, f => (first.run fuel f).bind (second.run fuel)
  | branch cond first second, f =>
    f.branch (cond f.mask f.state) (first.run fuel) (second.run fuel)
  | loop cond body, f => f.repeatWhile fuel cond (body.run fuel)

/-! ## Balance -/

/-- How many conditionals of its own are open after the code, where so many were open before it;
none if the code switches or closes a conditional that is not its own. -/
def depthAfter : Code B n σ → Nat → Option Nat
  | skip, d => some d
  | update _, d => some d
  | push _, d => some (d + 1)
  | flip, 0 => none
  | flip, d + 1 => some (d + 1)
  | pop, 0 => none
  | pop, d + 1 => some d
  | retire _, d => some d
  | seq first second, d => (first.depthAfter d).bind second.depthAfter
  | branch _ first second, d =>
    if first.depthAfter 0 = some 0 ∧ second.depthAfter 0 = some 0 then some d else none
  | loop _ body, d => if body.depthAfter 0 = some 0 then some d else none

/-- The code closes what it opens, and touches no other conditional. -/
def Balanced (p : Code B n σ) : Prop := p.depthAfter 0 = some 0

/-- The bodies of all loops are balanced. Outside of loops anything goes. -/
def LoopsBalanced : Code B n σ → Prop
  | seq first second => first.LoopsBalanced ∧ second.LoopsBalanced
  | branch _ first second => first.LoopsBalanced ∧ second.LoopsBalanced
  | loop _ body => body.Balanced
  | _ => True

variable {p q : Code B n σ} {d d' : Nat}

theorem depthAfter_seq (h : (seq p q).depthAfter d = some d') :
    ∃ e, p.depthAfter d = some e ∧ q.depthAfter e = some d' :=
  Option.bind_eq_some_iff.1 h

theorem depthAfter_branch {cond : WriteMask B n → σ → Mask B n}
    (h : (branch cond p q).depthAfter d = some d') : p.Balanced ∧ q.Balanced ∧ d' = d := by
  rw [depthAfter] at h
  split at h
  case isTrue hb => exact ⟨hb.1, hb.2, (Option.some.inj h).symm⟩
  case isFalse => cases h

theorem depthAfter_loop {cond : σ → Mask B n} (h : (loop cond p).depthAfter d = some d') :
    p.Balanced ∧ d' = d := by
  rw [depthAfter] at h
  split at h
  case isTrue hb => exact ⟨hb, (Option.some.inj h).symm⟩
  case isFalse => cases h

theorem depthAfter_flip (h : (flip : Code B n σ).depthAfter d = some d') :
    d' = d ∧ ∃ e, d = e + 1 := by
  cases d with
  | zero => cases h
  | succ e => exact ⟨(Option.some.inj h).symm, e, rfl⟩

theorem depthAfter_pop (h : (pop : Code B n σ).depthAfter d = some d') : d = d' + 1 := by
  cases d with
  | zero => cases h
  | succ e => exact congrArg Nat.succ (Option.some.inj h)

end Code

end Wavefront
