import Wavefront.Flow.Fuel
import Wavefront.Proofs.Gated

/-!
# Code that no lane takes part in

A branch skips an arm that no lane takes, and a program cannot tell. For gated code does nothing
where no lane is active: its assignments reach no lane, its retirements find none to retire, its
branches skip both arms and its loops take no turn, whatever their conditions say.

* A write mask is `Idle` when no lane of it is active. Code that closes what it opens leads from an
  idle mask to idle masks only (`Since.idle`), and in the end back to the mask it started from
  (`Since.eq_of_idle`), since only active lanes can be retired.
* `run_of_idle` adds that the code ends at once, with any fuel, and what it has done to its
  variables: nothing.
* Pieces of code are `Indistinguishable` when they lead to the same mask and the same state, or
  both go on for ever. The log is left out, for a loop in an arm that is not skipped notes its zero
  turns there. As no code reads the log, the difference stays there (`Code.indistinguishable`).

Main statement: `branch_eq_bothArms`.
-/

namespace Wavefront

variable {B : Backend} {n : Nat} {σ : Type}

/-! ## Idle masks -/

namespace WriteMask

variable {v w : WriteMask B n} {own : List (Frame B n)}

/-- No lane is active. -/
def Idle (w : WriteMask B n) : Prop := ∀ i, ¬w.IsActive i

theorem anyActive_eq_false : w.anyActive = false ↔ w.Idle := by
  rw [← Bool.not_eq_true, anyActive_eq_true, not_exists]
  rfl

theorem Idle.separate (h : w.Idle) : w.Separate := fun i hi => absurd hi (h i)

theorem Idle.restrict (h : w.Idle) (cond : Mask B n) : (w.restrict cond).Idle :=
  fun i hi => h i (isActive_restrict.1 hi).1

theorem Idle.enterLoop (h : w.Idle) : w.enterLoop.Idle := fun i hi => h i (isActive_enterLoop.1 hi)

/-- An assignment that reaches no lane. -/
theorem Idle.assign {k : Kind} (h : w.Idle) (target source : Batch B k n) :
    w.assign target source = target :=
  Batch.ext_lane fun i => by rw [lane_assign, if_neg (h i)]

namespace Since

/-- No code brings lanes back that were not active when it started. -/
theorem idle (h : Since v own w) (hv : v.Idle) : w.Idle := fun i hi => hv i (h.active i hi)

/-- Where no lane is active none can be retired, so the mask cannot change at all. -/
theorem eq_of_idle (h : Since v [] w) (hv : v.Idle) : w = v := by
  have hactive : w.active = v.active := by
    refine Batch.ext_lane fun i => Bool.eq_iff_iff.2 ⟨fun hi => ?_, fun hi => ?_⟩
    · exact absurd hi (h.idle hv i)
    · exact absurd hi (hv i)
  have hretired : w.retired = v.retired := by
    refine Batch.ext_lane fun i => Bool.eq_iff_iff.2 ⟨fun hi => ?_, h.mono i⟩
    exact (h.retired i hi).resolve_right (hv i)
  have hframes : w.frames = v.frames := h.frames
  cases w; cases v; cases hactive; cases hretired; cases hframes; rfl

end Since

end WriteMask

/-! ## Flows apart from their logs -/

namespace Flow

open WriteMask

variable {f f' : Flow B n σ}
  {code code' first first' second second' body body' : Flow B n σ → Option (Flow B n σ)}

/-- What a flow shows apart from its log. -/
def shown (f : Flow B n σ) : WriteMask B n × σ := (f.mask, f.state)

theorem shown_eq_iff : f.shown = f'.shown ↔ f.mask = f'.mask ∧ f.state = f'.state :=
  Prod.mk.injEq .. ▸ Iff.rfl

theorem shown_flip : f.flip.shown = (f.mask.flip, f.state) := by rw [shown, mask_flip, state_flip]

theorem shown_pop : f.pop.shown = (f.mask.pop, f.state) := by rw [shown, mask_pop, state_pop]

/-- Two pieces of code that lead from the same mask and state to the same mask and state, or both
have no answer. -/
def Indistinguishable (code code' : Flow B n σ → Option (Flow B n σ)) : Prop :=
  ∀ f f', f.shown = f'.shown → (code f).map shown = (code' f').map shown

/-- Going on from answers that look the same, in ways that look the same. -/
theorem map_bind_congr {α α' β β' γ δ : Type} {x : Option α} {x' : Option α'} {look : α → γ}
    {look' : α' → γ} {next : α → Option β} {next' : α' → Option β'} {lookOn : β → δ}
    {lookOn' : β' → δ} (hx : x.map look = x'.map look')
    (h : ∀ a a', look a = look' a' → (next a).map lookOn = (next' a').map lookOn') :
    (x.bind next).map lookOn = (x'.bind next').map lookOn' := by
  cases x with
  | none =>
    obtain rfl := Option.map_eq_none_iff.1 hx.symm
    rfl
  | some a =>
    obtain ⟨a', rfl, ha⟩ := Option.map_eq_some_iff.1 hx.symm
    exact h a a' ha.symm

theorem Indistinguishable.seq (h₁ : Indistinguishable first first')
    (h₂ : Indistinguishable second second') :
    Indistinguishable (fun f => (first f).bind second) fun f => (first' f).bind second' :=
  fun f f' hf => map_bind_congr (h₁ f f' hf) h₂

theorem Indistinguishable.whenActive (h : Indistinguishable code code') :
    Indistinguishable (fun f => f.whenActive code) fun f => f.whenActive code' := by
  intro f f' hf
  simp only [Flow.whenActive, (shown_eq_iff.1 hf).1]
  split
  · exact h f f' hf
  · exact congrArg some hf

/-- A step that can be told from what a flow shows. -/
theorem Indistinguishable.of_shown {step : Flow B n σ → Flow B n σ}
    (look : WriteMask B n × σ → WriteMask B n × σ) (h : ∀ f, (step f).shown = look f.shown) :
    Indistinguishable (fun f => some (step f)) fun f => some (step f) := by
  intro f f' hf
  rw [Option.map_some, Option.map_some, h, h, hf]

theorem indistinguishable_push (cond : Mask B n) :
    Indistinguishable (fun f : Flow B n σ => some (f.push cond)) fun f => some (f.push cond) :=
  .of_shown (fun s => (s.1.push cond, s.2)) fun _ => rfl

theorem indistinguishable_flip :
    Indistinguishable (fun f : Flow B n σ => some f.flip) fun f => some f.flip :=
  .of_shown (fun s => (s.1.flip, s.2)) fun _ => shown_flip

theorem indistinguishable_pop :
    Indistinguishable (fun f : Flow B n σ => some f.pop) fun f => some f.pop :=
  .of_shown (fun s => (s.1.pop, s.2)) fun _ => shown_pop

theorem Indistinguishable.branch (cond : Mask B n) (h₁ : Indistinguishable first first')
    (h₂ : Indistinguishable second second') :
    Indistinguishable (Flow.branch cond first second) (Flow.branch cond first' second') :=
  (indistinguishable_push cond).seq <| h₁.whenActive.seq <| indistinguishable_flip.seq <|
    h₂.whenActive.seq indistinguishable_pop

theorem shown_restrict_congr (cond : σ → Mask B n) (hf : f.shown = f'.shown) :
    (f.restrict (cond f.state)).shown = (f'.restrict (cond f'.state)).shown := by
  obtain ⟨hmask, hstate⟩ := shown_eq_iff.1 hf
  exact shown_eq_iff.2 ⟨by rw [Flow.restrict, Flow.restrict, hmask, hstate], hstate⟩

/-- The turns of loops whose bodies cannot be told apart. By induction on the fuel: the same lanes
want each turn, so both loops end with the same one. -/
theorem Indistinguishable.turns (h : Indistinguishable body body') (cond : σ → Mask B n)
    (fuel taken : Nat) (hf : f.shown = f'.shown) :
    (Flow.turns cond body fuel taken f).map (fun r => r.1.shown) =
      (Flow.turns cond body' fuel taken f').map fun r => r.1.shown := by
  induction fuel generalizing f f' taken with
  | zero =>
    have hf := shown_restrict_congr cond hf
    rw [Flow.turns, Flow.turns, (shown_eq_iff.1 hf).1]
    split
    · rfl
    · exact congrArg some hf
  | succ fuel ih =>
    have hf := shown_restrict_congr cond hf
    rw [Flow.turns, Flow.turns, (shown_eq_iff.1 hf).1]
    split
    · exact map_bind_congr (h _ _ hf) fun g g' hg => ih (taken + 1) hg
    · exact congrArg some hf

/-- A loop shows what its turns show, on the way out of it. -/
theorem map_shown_repeatWhile (cond : σ → Mask B n) (fuel : Nat) :
    (f.repeatWhile fuel cond body).map shown =
      ((Flow.turns cond body fuel 0 { f with mask := f.mask.enterLoop }).map
        fun r => r.1.shown).map fun s => ((s.1.reinstate f.mask.retired).pop, s.2) := by
  rw [Flow.repeatWhile, Option.map_map]
  rcases Flow.turns cond body fuel 0 { f with mask := f.mask.enterLoop } with _ | r
  · rfl
  · exact congrArg some shown_pop

theorem Indistinguishable.repeatWhile (h : Indistinguishable body body') (cond : σ → Mask B n)
    (fuel : Nat) : Indistinguishable (Flow.repeatWhile fuel cond body)
      (Flow.repeatWhile fuel cond body') := by
  intro f f' hf
  obtain ⟨hmask, hstate⟩ := shown_eq_iff.1 hf
  have henter : Flow.shown { f with mask := f.mask.enterLoop } =
      Flow.shown { f' with mask := f'.mask.enterLoop } :=
    shown_eq_iff.2 ⟨congrArg WriteMask.enterLoop hmask, hstate⟩
  rw [map_shown_repeatWhile, map_shown_repeatWhile, h.turns cond fuel 0 henter, hmask]

/-! ## Flows with an idle mask -/

/-- A branch that no lane comes to runs neither arm. -/
theorem branch_of_idle (h : f.mask.Idle) (cond : Mask B n)
    (first second : Flow B n σ → Option (Flow B n σ)) :
    ∃ g, f.branch cond first second = some g ∧ g.state = f.state := by
  have hstart := Since.refl h.separate
  have hpush : ¬(f.push cond).mask.anyActive := by
    rw [Bool.not_eq_true, anyActive_eq_false]
    exact hstart.push.idle h
  have hflip : ¬(f.push cond).flip.mask.anyActive := by
    rw [Bool.not_eq_true, anyActive_eq_false, mask_flip]
    exact hstart.push.flip.idle h
  refine ⟨_, branch_eq_some.2 ⟨_, _, if_neg hpush, if_neg hflip, rfl⟩, ?_⟩
  rw [state_pop, state_flip]
  rfl

/-- A loop that no lane enters takes no turn, whatever its condition says. -/
theorem repeatWhile_of_idle (h : f.mask.Idle) (cond : σ → Mask B n)
    (body : Flow B n σ → Option (Flow B n σ)) (fuel : Nat) :
    ∃ g, f.repeatWhile fuel cond body = some g ∧ g.state = f.state := by
  let entered : Flow B n σ := { f with mask := f.mask.enterLoop }
  have hnone : ¬(entered.restrict (cond entered.state)).mask.anyActive := by
    rw [Bool.not_eq_true, anyActive_eq_false]
    exact h.enterLoop.restrict _
  exact ⟨_, repeatWhile_eq_some.2 ⟨_, turns_of_inactive hnone fuel 0, rfl⟩, state_pop⟩

end Flow

/-! ## Code -/

namespace Code

open Wavefront.Flow WriteMask

/-- No code reads the log. -/
theorem indistinguishable (p : Code B n σ) (fuel : Nat) :
    Indistinguishable (p.run fuel) (p.run fuel) := by
  induction p with
  | skip => exact .of_shown id fun _ => rfl
  | update change => exact .of_shown (fun s => (s.1, change s.1 s.2)) fun _ => rfl
  | push cond => exact .of_shown (fun s => (s.1.push (cond s.1 s.2), s.2)) fun _ => rfl
  | flip => exact indistinguishable_flip
  | pop => exact indistinguishable_pop
  | retire cond => exact .of_shown (fun s => (s.1.retire (cond s.1 s.2), s.2)) fun _ => rfl
  | seq first second ih₁ ih₂ => exact ih₁.seq ih₂
  | branch cond first second ih₁ ih₂ =>
    intro f f' hf
    -- both runs branch on the same lanes, for the condition is asked of mask and state
    obtain ⟨hmask, hstate⟩ := shown_eq_iff.1 hf
    rw [run, run, hmask, hstate]
    exact ih₁.branch _ ih₂ f f' hf
  | loop cond body ih => exact ih.repeatWhile cond fuel

/-- A conditional that runs both arms, whether or not a lane takes them. -/
def bothArms (cond : WriteMask B n → σ → Mask B n) (first second : Code B n σ) : Code B n σ :=
  .seq (.push cond) (.seq first (.seq .flip (.seq second .pop)))

/-! ## Gated code -/

section Gated

open Wavefront.Gated

variable {ι : Type} {kind : ι → Kind} [DecidableEq ι]

/-- Code that changes its variables by masked assignment only: of any total expression, to any
variable. -/
def AssignsOnly : Code B n (Vars B n kind) → Prop
  | update change => ∃ (x : ι) (source : WriteMask B n → Vars B n kind → Batch B (kind x) n),
    change = fun w s => Function.update s x (w.assign (s x) (source w s))
  | seq first second => first.AssignsOnly ∧ second.AssignsOnly
  | branch _ first second => first.AssignsOnly ∧ second.AssignsOnly
  | loop _ body => body.AssignsOnly
  | _ => True

theorem assignsOnly_program (p : Program B n kind) : p.code.AssignsOnly := by
  induction p with
  | skip => trivial
  | assign x source => exact ⟨x, fun _ s => source.batch s, rfl⟩
  | retire cond => trivial
  | seq first second ih₁ ih₂ => exact ⟨ih₁, ih₂⟩
  | branch cond first second ih₁ ih₂ => exact ⟨ih₁, ih₂⟩
  | loop cond body ih => exact ih

variable {p q : Code B n (Vars B n kind)} {v : WriteMask B n} {own : List (Frame B n)}
  {f : Flow B n (Vars B n kind)} {d d' : Nat}

/-- In the midst of code that started where no lane was active, nothing happens to the variables,
and no fuel is needed. The induction keeps the conditionals that the code has opened itself: with
those alone to switch and close, the mask stays idle. -/
theorem run_of_idle (hp : p.AssignsOnly) (fuel : Nat) (hv : v.Idle)
    (hdepth : p.depthAfter d = some d') (hown : own.length = d) (h : Since v own f.mask) :
    ∃ g, p.run fuel f = some g ∧ g.state = f.state := by
  induction p generalizing d d' own f with
  | skip => exact ⟨f, rfl, rfl⟩
  | update change =>
    obtain ⟨x, source, rfl⟩ := hp
    refine ⟨_, rfl, ?_⟩
    dsimp only
    rw [(h.idle hv).assign, Function.update_eq_self]
  | push cond => exact ⟨_, rfl, rfl⟩
  | flip => exact ⟨_, rfl, state_flip⟩
  | pop => exact ⟨_, rfl, state_pop⟩
  | retire cond => exact ⟨_, rfl, rfl⟩
  | seq first second ih₁ ih₂ =>
    obtain ⟨e, hfirst, hsecond⟩ := depthAfter_seq hdepth
    obtain ⟨f₁, hf₁, hstate₁⟩ := ih₁ hp.1 hfirst hown h
    obtain ⟨own₁, hown₁, h₁⟩ := first.keepsCount fuel d e v own f f₁ hfirst hown h hf₁
    obtain ⟨g, hg, hstate⟩ := ih₂ hp.2 hsecond hown₁ h₁
    exact ⟨g, Option.bind_eq_some_iff.2 ⟨f₁, hf₁, hg⟩, hstate.trans hstate₁⟩
  | branch cond first second => exact branch_of_idle (h.idle hv) _ _ _
  | loop cond body => exact repeatWhile_of_idle (h.idle hv) _ _ _

/-- Balanced gated code that no lane takes part in does nothing. -/
theorem exists_run_of_idle (hp : p.AssignsOnly) (hbalanced : p.Balanced) (hf : f.mask.Idle)
    (fuel : Nat) : ∃ g, p.run fuel f = some g ∧ g.shown = f.shown := by
  obtain ⟨g, hg, hstate⟩ := run_of_idle hp fuel hf hbalanced rfl (.refl hf.separate)
  have hmask := (hbalanced.restores fuel f g hf.separate hg).eq_of_idle hf
  exact ⟨g, hg, shown_eq_iff.2 ⟨hmask, hstate⟩⟩

/-- An arm may as well be run if no lane takes it. -/
theorem indistinguishable_whenActive (hp : p.AssignsOnly) (hbalanced : p.Balanced) (fuel : Nat) :
    Indistinguishable (fun f => f.whenActive (p.run fuel)) (p.run fuel) := by
  intro f f' hf
  rw [← p.indistinguishable fuel f f' hf]
  dsimp only
  rw [Flow.whenActive]
  split
  case isTrue => rfl
  case isFalse hnone =>
    -- the arm that is skipped here would have been run without an active lane
    have hidle : f.mask.Idle := anyActive_eq_false.1 (Bool.eq_false_iff.2 hnone)
    obtain ⟨g, hg, hshown⟩ := exists_run_of_idle hp hbalanced hidle fuel
    rw [hg, Option.map_some, Option.map_some, hshown]

/-- Skipping the arms that no lane takes makes no difference: a branch ends with the same variables,
the same active and retired lanes and the same open conditionals as the sequence that runs both
arms, or neither ends. And gated code that is started with no lane active ends, with any fuel, and
leaves all of these as they were. -/
theorem branch_eq_bothArms (hp : p.AssignsOnly) (hq : q.AssignsOnly) (hpb : p.Balanced)
    (hqb : q.Balanced) (cond : WriteMask B n → Vars B n kind → Mask B n) (fuel : Nat)
    (f : Flow B n (Vars B n kind)) :
    ((branch cond p q).run fuel f).map shown = ((bothArms cond p q).run fuel f).map shown ∧
      ((∀ i, ¬f.mask.IsActive i) →
        ∃ g, p.run fuel f = some g ∧ g.mask = f.mask ∧ g.state = f.state) := by
  constructor
  · have hfirst := indistinguishable_whenActive hp hpb fuel
    have hsecond := indistinguishable_whenActive hq hqb fuel
    exact (indistinguishable_push _).seq (hfirst.seq (indistinguishable_flip.seq
      (hsecond.seq indistinguishable_pop))) f f rfl
  · intro hf
    obtain ⟨g, hg, hshown⟩ := exists_run_of_idle hp hpb hf fuel
    obtain ⟨hmask, hstate⟩ := shown_eq_iff.1 hshown
    exact ⟨g, hg, hmask, hstate⟩

/-- Both lanes take the second arm. The first one is a loop that would never end if a lane entered
it, with a lane to retire after it, and run or not it changes nothing. -/
theorem branch_eq_bothArms_untaken :
    let first : Program .scalar 2 (fun _ : Unit => .int) :=
      .seq (.loop (.const true) (.assign () (.const 5))) (.retire (.const true))
    let second : Program .scalar 2 (fun _ : Unit => .int) := .assign () (.const 7)
    let never : WriteMask .scalar 2 → Vars .scalar 2 (fun _ : Unit => .int) → Mask .scalar 2 :=
      fun _ _ => Batch.splat false
    let f : Flow .scalar 2 (Vars .scalar 2 fun _ : Unit => .int) := ⟨.fresh, fun _ => ⟨#v[1, 2]⟩, []⟩
    let idle : Flow .scalar 2 (Vars .scalar 2 fun _ : Unit => .int) :=
      { f with mask := f.mask.retire (Batch.splat true) }
    (first.code.AssignsOnly ∧ second.code.AssignsOnly ∧ first.code.Balanced ∧ second.code.Balanced) ∧
    (∃ g, (bothArms never first.code second.code).run 0 f = some g ∧
      ((branch never first.code second.code).run 0 f).map shown = some g.shown ∧
      (g.state ()).toList = [7, 7] ∧ g.mask.retired.toList = [false, false]) ∧
    (∀ i, ¬idle.mask.IsActive i) ∧
    ∃ g, first.code.run 0 idle = some g ∧ g.mask = idle.mask ∧ g.state = idle.state := by
  intro first second never f idle
  have hp := assignsOnly_program first
  have hq := assignsOnly_program second
  have hpb : first.code.Balanced := first.depthAfter_code 0
  have hqb : second.code.Balanced := second.depthAfter_code 0
  have hidle : ∀ i, ¬idle.mask.IsActive i := by decide +kernel
  have hrun : ((bothArms never first.code second.code).run 0 f).map
      (fun g => ((g.state ()).toList, g.mask.retired.toList)) = some ([7, 7], [false, false]) := by
    decide +kernel
  obtain ⟨g, hg, hlists⟩ := Option.map_eq_some_iff.1 hrun
  obtain ⟨hstate, hretired⟩ := Prod.mk.inj hlists
  obtain ⟨hboth, -⟩ := branch_eq_bothArms hp hq hpb hqb never 0 f
  obtain ⟨-, hnothing⟩ := branch_eq_bothArms hp hq hpb hqb never 0 idle
  rw [hg, Option.map_some] at hboth
  exact ⟨⟨hp, hq, hpb, hqb⟩, ⟨g, hg, hboth, hstate, hretired⟩, hidle, hnothing hidle⟩

end Gated

end Code

end Wavefront
