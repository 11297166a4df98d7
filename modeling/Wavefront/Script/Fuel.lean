import Wavefront.Flow.Fuel
import Wavefront.Script.Run

/-!
# Fuel of scripts

The fuel of a script bounds the turns of each of its loops. Main statement: a script that has
answers for some fuel has the same answers for every larger one (`run_of_le`), so what a script
answers does not depend on the fuel it was given.
-/

namespace Wavefront.Script

variable {B : Backend} {n : Nat}

/-- More answers of the arms keep the answers of a branch. -/
theorem runBranch_of_extends {cond : Mask B n}
    {first first' second second' :
      Flow B n (Store B n) → Option (Flow B n (Store B n) × List Answer)}
    (h₁ : ∀ f r, first f = some r → first' f = some r)
    (h₂ : ∀ f r, second f = some r → second' f = some r)
    {f : Flow B n (Store B n)} {r : Flow B n (Store B n) × Answer}
    (h : runBranch cond first second f = some r) : runBranch cond first' second' f = some r := by
  obtain ⟨g, hg, h⟩ := Option.bind_eq_some_iff.1 h
  refine Option.bind_eq_some_iff.2 ⟨g, Flow.Extends.branch cond ?_ ?_ _ _ hg, h⟩
  · intro f g hg
    obtain ⟨s, hs, hg⟩ := Option.bind_eq_some_iff.1 hg
    exact Option.bind_eq_some_iff.2 ⟨s, h₁ _ _ hs, hg⟩
  · intro f g hg
    obtain ⟨s, hs, hg⟩ := Option.bind_eq_some_iff.1 hg
    exact Option.bind_eq_some_iff.2 ⟨s, h₂ _ _ hs, hg⟩

/-- More fuel, and more answers of the body, keep the answers of a loop. -/
theorem runLoop_of_extends {cond : Expr}
    {body body' : Flow B n (Store B n) → Option (Flow B n (Store B n) × List Answer)}
    (hbody : ∀ f r, body f = some r → body' f = some r) {fuel fuel' : Nat} (hle : fuel ≤ fuel')
    {f : Flow B n (Store B n)} {r : Flow B n (Store B n) × Answer}
    (h : runLoop fuel cond body f = some r) : runLoop fuel' cond body' f = some r := by
  obtain ⟨g, hg, h⟩ := Option.bind_eq_some_iff.1 h
  refine Option.bind_eq_some_iff.2 ⟨g, Flow.Extends.repeatWhile _ ?_ hle _ _ hg, h⟩
  intro f g hg
  obtain ⟨s, hs, hg⟩ := Option.bind_eq_some_iff.1 hg
  exact Option.bind_eq_some_iff.2 ⟨s, hbody _ _ hs, hg⟩

mutual

/-- More fuel keeps the answer of a step. -/
theorem Step.run_of_le {fuel fuel' : Nat} (hle : fuel ≤ fuel') (step : Step)
    (f : Flow B n (Store B n)) (r : Flow B n (Store B n) × Answer)
    (h : step.run fuel f = some r) : step.run fuel' f = some r := by
  cases step with
  | action a => exact h
  | branch cond first second =>
    rw [Step.run] at h ⊢
    split at h
    · exact h
    · exact runBranch_of_extends (Step.runAll_of_le hle first) (Step.runAll_of_le hle second) h
  | loop cond body => exact runLoop_of_extends (Step.runAll_of_le hle body) hle h

/-- More fuel keeps the answers of steps. -/
theorem Step.runAll_of_le {fuel fuel' : Nat} (hle : fuel ≤ fuel') (steps : List Step)
    (f : Flow B n (Store B n)) (r : Flow B n (Store B n) × List Answer)
    (h : Step.runAll fuel steps f = some r) : Step.runAll fuel' steps f = some r := by
  cases steps with
  | nil => exact h
  | cons step steps =>
    obtain ⟨s, hs, h⟩ := Option.bind_eq_some_iff.1 h
    obtain ⟨t, ht, h⟩ := Option.bind_eq_some_iff.1 h
    exact Option.bind_eq_some_iff.2 ⟨s, Step.run_of_le hle step f s hs,
      Option.bind_eq_some_iff.2 ⟨t, Step.runAll_of_le hle steps _ t ht, h⟩⟩

end

/-- More fuel keeps the answers of a script. -/
theorem run_of_le {fuel fuel' : Nat} (hle : fuel ≤ fuel') {steps : List Step}
    {answers : List Answer} (h : run B n fuel steps = some answers) :
    run B n fuel' steps = some answers := by
  obtain ⟨r, hr, h⟩ := Option.map_eq_some_iff.1 h
  exact Option.map_eq_some_iff.2 ⟨r, Step.runAll_of_le hle steps _ r hr, h⟩

end Wavefront.Script
