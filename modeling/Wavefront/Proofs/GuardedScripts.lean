import Wavefront.Proofs.Code
import Wavefront.Proofs.FlushGuards
import Wavefront.Script.Run

/-!
# Guards in scripts

A script has its own steps for creating and dropping guards, and expressions are evaluated under the
word that is in force. Whatever arms are taken and however often a body is run, the word only makes
moves (`Step.runAll_leads`): an action that fails makes none, and branches and loops add nothing to
what their steps do. So what is known of histories holds of scripts, and a script flushes subnormal
values exactly while there is a guard that is not empty (`mode_of_runAll`).
-/

namespace Wavefront

namespace FloatControl

variable {c d e : FloatControl} {initial word : ControlWord} {stack : List (Option ControlWord)}

/-- Some history leads from the first to the second. -/
def Leads (c d : FloatControl) : Prop := ∃ ms, d = c.moves ms

theorem Leads.refl (c : FloatControl) : c.Leads c := ⟨[], rfl⟩

theorem Leads.trans (h : c.Leads d) (h' : d.Leads e) : c.Leads e := by
  obtain ⟨ms, rfl⟩ := h
  obtain ⟨ms', rfl⟩ := h'
  exact ⟨ms ++ ms', (moves_append c ms ms').symm⟩

/-- Without a guard the control bits are the initial ones, the flush bits among them. -/
theorem Layered.getLsbD_of_not_guarded (h : Layered initial stack word)
    (hguarded : stack.any Option.isSome = false) {i : Nat} (hi : 6 ≤ i) :
    word.bits.getLsbD i = initial.bits.getLsbD i := by
  induction h with
  | ground hword => exact hword i hi
  | empty _ ih => exact ih hguarded
  | guard => cases hguarded

/-- A thread that starts with the usual word flushes exactly while it has a guard. -/
theorem denormals_of_leads (h : fresh.Leads c) : c.denormals = ⟨c.guarded, c.guarded⟩ := by
  obtain ⟨ms, rfl⟩ := h
  have hlayered : Layered .initial (fresh.moves ms).guards (fresh.moves ms).word :=
    (Layered.ground fun _ _ => rfl).moves (c := fresh) ms
  rw [denormals, ControlWord.denormals]
  cases hguarded : (fresh.moves ms).guarded
  · rw [hlayered.getLsbD_of_not_guarded hguarded (Nat.le_refl 6),
      hlayered.getLsbD_of_not_guarded hguarded (by decide : 6 ≤ 15)]
    rfl
  · rw [hlayered.getLsbD_of_guarded hguarded (.inl rfl),
      hlayered.getLsbD_of_guarded hguarded (.inr rfl)]

end FloatControl

/-! ## What branches and loops keep -/

namespace Flow

variable {B : Backend} {n : Nat} {σ : Type} {f g : Flow B n σ}
  {body first second : Flow B n σ → Option (Flow B n σ)}

theorem whenActive_keeps {P : σ → Prop} (hbody : ∀ f g, P f.state → body f = some g → P g.state)
    (h : f.whenActive body = some g) (hf : P f.state) : P g.state := by
  rcases whenActive_eq_some h with ⟨-, rfl⟩ | ⟨-, h⟩
  · exact hf
  · exact hbody f g hf h

/-- A branch keeps what its arms keep of the state. -/
theorem branch_keeps {P : σ → Prop} {cond : Mask B n}
    (hfirst : ∀ f g, P f.state → first f = some g → P g.state)
    (hsecond : ∀ f g, P f.state → second f = some g → P g.state)
    (h : f.branch cond first second = some g) (hf : P f.state) : P g.state := by
  obtain ⟨f₁, f₂, h₁, h₂, rfl⟩ := branch_eq_some.1 h
  have h₁ : P f₁.state := whenActive_keeps hfirst h₁ hf
  rw [state_pop]
  exact whenActive_keeps hsecond h₂ (by rwa [state_flip])

/-- A loop keeps what its body keeps. -/
theorem repeatWhile_keeps {P : σ → Prop} {cond : σ → Mask B n} {fuel : Nat}
    (hbody : ∀ f g, P f.state → body f = some g → P g.state)
    (h : f.repeatWhile fuel cond body = some g) (hf : P f.state) : P g.state := by
  obtain ⟨r, hr, rfl⟩ := repeatWhile_eq_some.1 h
  obtain ⟨last, hlast, hstate, -⟩ := turns_induction (fun f => P f.state)
    (fun f g hf h => hbody (f.restrict (cond f.state)) g hf h) hr hf
  rw [state_pop, hstate]
  exact hlast

end Flow

namespace Script

variable {B : Backend} {n : Nat} {f g : Flow B n (Store B n)}

/-! ## Actions -/

/-- A failure is only logged. -/
theorem state_fail (f : Flow B n (Store B n)) (failure : Failure) (after : Option Lanes) :
    (fail f failure after).1.state = f.state := by
  have hnote (events : List Event) (f : Flow B n (Store B n)) :
      (events.foldl Flow.note f).state = f.state := by
    induction events generalizing f with
    | nil => rfl
    | cons event events ih => exact ih (f.note event)
  exact hnote failure.events f

theorem control_fail (f : Flow B n (Store B n)) (failure : Failure) (after : Option Lanes) :
    (fail f failure after).1.state.control = f.state.control :=
  congrArg Store.control (state_fail f failure after)

/-- The moves that an action makes on the control word. -/
def Action.guardMoves : Action → List FloatControl.Move
  | guard => [.enter]
  | guardIf flush => [.fastMath ⟨false, flush, false⟩]
  | dropGuard => [.leave]
  | _ => []

/-- A move of the mask leaves the control word. -/
theorem MaskMove.control_apply {scope : Scope B n} {saved : List (WriteMask B n)} {move : MaskMove}
    (h : move.apply scope saved f = .ok g) : g.state.control = f.state.control := by
  cases move with
  | fresh | look =>
    cases h
    rfl
  | flip =>
    cases h
    rw [Flow.state_flip]
  | pop =>
    cases h
    rw [Flow.state_pop]
  | push cond | retire cond =>
    rw [apply] at h
    cases hcond : cond.evalMask scope with
    | error failure =>
      rw [hcond] at h
      cases h
    | ok mask =>
      rw [hcond] at h
      cases h
      rfl
  | restore =>
    cases saved with
    | nil => cases h
    | cons mask saved =>
      cases h
      rfl

/-- No other action touches the word, whether it fails or not. -/
theorem Action.control_run (f : Flow B n (Store B n)) (a : Action) :
    (a.run f).1.state.control = f.state.control.moves a.guardMoves := by
  cases a with
  | guard | guardIf | dropGuard | saveMask | maskText => rfl
  | query keep q =>
    rw [run]
    split
    · exact control_fail f _ _
    · split <;> rfl
  | update name u =>
    rw [run]
    split
    · exact control_fail f _ _
    · split
      · exact control_fail f _ _
      · rfl
  | readIndexed name index candidates =>
    rw [run]
    split
    · exact control_fail f _ _
    · split
      · exact control_fail f _ _
      · -- the lanes that did match have been written
        split
        · rfl
        · exact control_fail { f with state := f.state.put name _ } _ _
  | store e offset length =>
    rw [run]
    split
    · exact control_fail f _ _
    · split
      · exact control_fail f _ _
      · dsimp only
        split
        · exact control_fail (withMemory f _) _ _
        · rfl
        · rfl
  | load keep k offset length =>
    rw [run]
    split
    · exact control_fail f _ _
    · dsimp only
      split
      · exact control_fail (withMemory f _) _ _
      · rfl
      · rfl
  | poke k offset values =>
    rw [run]
    split
    · exact control_fail f _ _
    · rfl
  | mask move =>
    rw [run]
    split
    · exact control_fail f _ _
    case h_2 h => exact MaskMove.control_apply h

/-! ## Steps -/

/-- An action makes a history of its own moves. -/
theorem Action.leads_run (f : Flow B n (Store B n)) (a : Action) :
    f.state.control.Leads (a.run f).1.state.control :=
  ⟨a.guardMoves, a.control_run f⟩

theorem leads_failedStep (f : Flow B n (Store B n)) (failure : Failure) :
    f.state.control.Leads (failedStep f failure).1.state.control :=
  ⟨[], control_fail f failure none⟩

/-- A branch leads where one arm leads after the other. -/
theorem runBranch_leads {cond : Mask B n}
    {first second : Flow B n (Store B n) → Option (Flow B n (Store B n) × List Answer)}
    (hfirst : ∀ f r, first f = some r → f.state.control.Leads r.1.state.control)
    (hsecond : ∀ f r, second f = some r → f.state.control.Leads r.1.state.control)
    {r : Flow B n (Store B n) × Answer} (h : runBranch cond first second f = some r) :
    f.state.control.Leads r.1.state.control := by
  obtain ⟨g, hg, h⟩ := Option.bind_eq_some_iff.1 h
  obtain rfl := Option.some.inj h
  refine Flow.branch_keeps
    (P := fun state => f.state.control.Leads (state : Store B n × _).1.control) ?_ ?_ hg (.refl _)
  · intro f' g' hf' h
    obtain ⟨s, hs, h⟩ := Option.bind_eq_some_iff.1 h
    obtain rfl := Option.some.inj h
    exact hf'.trans (hfirst _ s hs)
  · intro f' g' hf' h
    obtain ⟨s, hs, h⟩ := Option.bind_eq_some_iff.1 h
    obtain rfl := Option.some.inj h
    exact hf'.trans (hsecond _ s hs)

/-- A loop leads where its body does, or nowhere if its condition fails. -/
theorem runLoop_leads {fuel : Nat} {cond : Expr}
    {body : Flow B n (Store B n) → Option (Flow B n (Store B n) × List Answer)}
    (hbody : ∀ f r, body f = some r → f.state.control.Leads r.1.state.control)
    {r : Flow B n (Store B n) × Answer} (h : runLoop fuel cond body f = some r) :
    f.state.control.Leads r.1.state.control := by
  obtain ⟨g, hg, h⟩ := Option.bind_eq_some_iff.1 h
  have hleads : f.state.control.Leads g.state.1.control := by
    refine Flow.repeatWhile_keeps
      (P := fun state => f.state.control.Leads (state : Store B n × _).1.control) ?_ hg (.refl _)
    intro f' g' hf' h
    obtain ⟨s, hs, h⟩ := Option.bind_eq_some_iff.1 h
    obtain rfl := Option.some.inj h
    exact hf'.trans (hbody _ s hs)
  dsimp only at h
  split at h
  case h_1 failure _ =>
    obtain rfl := Option.some.inj h
    exact leads_failedStep f failure
  case h_2 =>
    obtain rfl := Option.some.inj h
    exact hleads

mutual

/-- Whatever a step does, the control word only makes moves. -/
theorem Step.run_leads {fuel : Nat} (step : Step) (f : Flow B n (Store B n))
    (r : Flow B n (Store B n) × Answer) (h : step.run fuel f = some r) :
    f.state.control.Leads r.1.state.control := by
  cases step with
  | action a =>
    obtain rfl := Option.some.inj h
    exact a.leads_run f
  | branch cond first second =>
    rw [Step.run] at h
    split at h
    case h_1 failure _ =>
      obtain rfl := Option.some.inj h
      exact leads_failedStep f failure
    case h_2 => exact runBranch_leads (Step.runAll_leads first) (Step.runAll_leads second) h
  | loop cond body => exact runLoop_leads (Step.runAll_leads body) h

/-- So do all steps together. -/
theorem Step.runAll_leads {fuel : Nat} (steps : List Step) (f : Flow B n (Store B n))
    (r : Flow B n (Store B n) × List Answer) (h : Step.runAll fuel steps f = some r) :
    f.state.control.Leads r.1.state.control := by
  cases steps with
  | nil =>
    obtain rfl := Option.some.inj h
    exact .refl _
  | cons step steps =>
    obtain ⟨s, hs, h⟩ := Option.bind_eq_some_iff.1 h
    obtain ⟨t, ht, h⟩ := Option.bind_eq_some_iff.1 h
    obtain rfl := Option.some.inj h
    exact (Step.run_leads step f s hs).trans (Step.runAll_leads steps _ t ht)

end

/-- After any steps of a script, expressions are evaluated flushing subnormal operands and results
if there is a guard that is not empty, and keeping both if there is none. -/
theorem mode_of_runAll {lib : MathLibrary} {fuel : Nat} {steps : List Step}
    {answers : List Answer}
    (h : Step.runAll fuel steps (start lib : Flow B n (Store B n)) = some (f, answers)) :
    f.state.scope.mode = ⟨f.state.control.guarded, f.state.control.guarded⟩ :=
  FloatControl.denormals_of_leads (Step.runAll_leads steps _ _ h)

end Script

end Wavefront
