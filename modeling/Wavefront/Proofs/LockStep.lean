import Wavefront.Proofs.Gated

/-!
# Lock step and single lanes

Running a gated program in lock step is running it on each lane alone. Two things make it so. What a
piece of the program writes reaches active lanes only, so a lane that is not active waits unchanged.
And a lane becomes inactive just where its own interpreter leaves: it is out of the arms it does not
take, and it stays out of a loop that it has left, until all of that loop's lanes have.

* `Agrees` relates the two on one lane: the start and end of a piece of lock-step code, and what the
  interpreter answers. `Simulates` says that they agree on all lanes from wherever the code starts.
* One lemma for each way to build programs: `simulates_assign`, `simulates_retire`, `simulates_seq`,
  `simulates_branch`, `simulates_loop`. A loop is one turn, `turn_agrees`, and an induction on the
  turns, `turns_agree`.

Main statement: `runLane_of_run`.
-/

namespace Wavefront.Gated

open Wavefront.Flow WriteMask

variable {ι : Type} {kind : ι → Kind} {B : Backend} {n : Nat}

/-! ## Agreement -/

/-- The lock-step code that led from `f` to `g` did on the lane what the interpreter does: where the
interpreter leaves, the lane ends inactive, and only there. A lane that is not active keeps its
values. -/
structure Agrees (inLoop : Bool) (lane : Env kind → Option (Env kind × Signal))
    (f g : Flow B n (Vars B n kind)) (i : Fin (Batch.width B n)) : Prop where
  active : f.mask.IsActive i → ∃ signal, lane (f.state.lane i) = some (g.state.lane i, signal) ∧
    (signal = .normal ∧ g.mask.IsActive i ∨ signal = .ofRetire inLoop ∧ ¬g.mask.IsActive i)
  inactive : ¬f.mask.IsActive i → g.state.lane i = f.state.lane i

/-- The code and the interpreter agree on all lanes. -/
def Simulates (inLoop : Bool)
    (code : Flow B n (Vars B n kind) → Option (Flow B n (Vars B n kind)))
    (lane : Env kind → Option (Env kind × Signal)) : Prop :=
  ∀ f g, f.mask.Separate → code f = some g → ∀ i, Agrees inLoop lane f g i

variable {inLoop : Bool} {f g : Flow B n (Vars B n kind)} {i : Fin (Batch.width B n)}
  {code first second body : Flow B n (Vars B n kind) → Option (Flow B n (Vars B n kind))}
  {lane lane₁ lane₂ : Env kind → Option (Env kind × Signal)}

theorem Simulates.whenActive (h : Simulates inLoop code lane) :
    Simulates inLoop (fun f => f.whenActive code) lane := by
  intro f g hf hg i
  rcases whenActive_eq_some hg with ⟨hnone, rfl⟩ | ⟨-, hg⟩
  · exact ⟨fun hi => absurd ⟨i, hi⟩ hnone, fun _ => rfl⟩
  · exact h f g hf hg i

/-! ## Lane-wise conditions -/

/-- A lane starts the first arm if it is active and its own condition holds. -/
theorem isActive_push_batch (cond : Lanewise B n kind .bool) :
    (f.push (cond.batch f.state)).mask.IsActive i ↔
      f.mask.IsActive i ∧ cond.lane (f.state.lane i) = true := by
  rw [← cond.lane_batch]
  exact isActive_push

/-- A lane takes part in a turn if it is still in the loop and its own condition holds. -/
theorem isActive_restrict_batch (cond : Lanewise B n kind .bool) :
    (f.restrict (cond.batch f.state)).mask.IsActive i ↔
      f.mask.IsActive i ∧ cond.lane (f.state.lane i) = true := by
  rw [← cond.lane_batch]
  exact isActive_restrict

/-! ## Assignments and retirements -/

theorem simulates_assign [DecidableEq ι] (x : ι) (source : Lanewise B n kind (kind x)) :
    Simulates inLoop
      (fun f =>
        let assigned := f.mask.assign (f.state x) (source.batch f.state)
        some { f with state := Function.update f.state x assigned })
      fun env => some (Function.update env x (source.lane env), .normal) := by
  intro f g hf hg i
  obtain rfl := Option.some.inj hg
  have hstate : Vars.lane (Function.update f.state x
      (f.mask.assign (f.state x) (source.batch f.state))) i = Function.update (f.state.lane i) x
        (if f.mask.IsActive i then source.lane (f.state.lane i) else f.state.lane i x) := by
    rw [Vars.lane_update, lane_assign, source.lane_batch]
    rfl
  constructor
  · intro hi
    refine ⟨.normal, ?_, .inl ⟨rfl, hi⟩⟩
    rw [hstate, if_pos hi]
  · intro hi
    rw [hstate, if_neg hi]
    exact Function.update_eq_self x _

theorem simulates_retire (cond : Lanewise B n kind .bool) :
    Simulates inLoop (fun f => some { f with mask := f.mask.retire (cond.batch f.state) })
      fun env => some (env, if cond.lane env then .ofRetire inLoop else .normal) := by
  intro f g hf hg i
  obtain rfl := Option.some.inj hg
  refine ⟨fun hi => ?_, fun _ => rfl⟩
  have hretire : (f.mask.retire (cond.batch f.state)).IsActive i ↔
      cond.lane (f.state.lane i) = false := by
    rw [isActive_retire, cond.lane_batch]
    exact and_iff_right hi
  by_cases hc : cond.lane (f.state.lane i) = true
  · refine ⟨.ofRetire inLoop, ?_, .inr ⟨rfl, fun hi => ?_⟩⟩
    · rw [if_pos hc]
    · exact Bool.false_ne_true ((hretire.1 hi).symm.trans hc)
  · refine ⟨.normal, ?_, .inl ⟨rfl, hretire.2 (Bool.eq_false_iff.2 hc)⟩⟩
    rw [if_neg hc]

/-! ## Sequences and branches -/

/-- A lane that left in the first part is inactive in the second. -/
theorem simulates_seq (r₁ : Restores first) (r₂ : Restores second)
    (h₁ : Simulates inLoop first lane₁) (h₂ : Simulates inLoop second lane₂) :
    Simulates inLoop (fun f => (first f).bind second) fun env => (lane₁ env).bind (goOn lane₂) := by
  intro f g hf hg i
  obtain ⟨f₁, hf₁, hg⟩ := Option.bind_eq_some_iff.1 hg
  have hsince₁ := r₁ f f₁ hf hf₁
  have hsince₂ := r₂ f₁ g hsince₁.separate hg
  have hagree₁ := h₁ f f₁ hf hf₁ i
  have hagree₂ := h₂ f₁ g hsince₁.separate hg i
  constructor
  · intro hi
    obtain ⟨signal, hlane, ⟨rfl, hi₁⟩ | ⟨rfl, hi₁⟩⟩ := hagree₁.active hi
    · obtain ⟨signal, hlane₂, hend⟩ := hagree₂.active hi₁
      refine ⟨signal, ?_, hend⟩
      rw [hlane, Option.bind_some]
      exact hlane₂
    · -- the interpreter has left and skips the second part, where the lane is inactive
      refine ⟨.ofRetire inLoop, ?_, .inr ⟨rfl, fun hi₂ => hi₁ (hsince₂.active i hi₂)⟩⟩
      rw [hlane, Option.bind_some, hagree₂.inactive hi₁]
      cases inLoop <;> rfl
  · intro hi
    have hi₁ : ¬f₁.mask.IsActive i := fun hi₁ => hi (hsince₁.active i hi₁)
    exact (hagree₂.inactive hi₁).trans (hagree₁.inactive hi)

/-- A lane is active in the arm it takes only, and after the branch as it is after that arm. -/
theorem simulates_branch (cond : Lanewise B n kind .bool) (r₁ : Restores first)
    (r₂ : Restores second) (h₁ : Simulates inLoop first lane₁)
    (h₂ : Simulates inLoop second lane₂) :
    Simulates inLoop (fun f => f.branch (cond.batch f.state) first second)
      fun env => if cond.lane env then lane₁ env else lane₂ env := by
  intro f g hf hg i
  obtain ⟨f₁, f₂, hf₁, hf₂, rfl, hsince₁, hsince₂⟩ := r₁.branch_eq_some r₂ hf hg
  have hagree₁ := h₁.whenActive _ f₁ hf.push hf₁ i
  have hagree₂ := h₂.whenActive _ f₂ (mask_flip ▸ hsince₁.separate.flip) hf₂ i
  have hpush := isActive_push_batch (f := f) (i := i) cond
  have hflip : f₁.flip.mask.IsActive i ↔
      f.mask.IsActive i ∧ cond.lane (f.state.lane i) = false := by
    rw [← cond.lane_batch, mask_flip]
    exact hsince₁.isActive_flip_push hf
  -- an arm that the lane does not take leaves its values alone
  have hkeep₁ : ¬(f.push (cond.batch f.state)).mask.IsActive i →
      f₁.state.lane i = f.state.lane i := hagree₁.inactive
  have hkeep₂ : ¬f₁.flip.mask.IsActive i → f₂.pop.state.lane i = f₁.state.lane i := by
    intro hi
    rw [state_pop, hagree₂.inactive hi, state_flip]
  constructor
  · intro hi
    cases hc : cond.lane (f.state.lane i) with
    | true =>
      obtain ⟨signal, hlane, hend⟩ := hagree₁.active (hpush.2 ⟨hi, hc⟩)
      refine ⟨signal, ?_, ?_⟩
      · rw [if_pos rfl, hkeep₂ fun h => Bool.false_ne_true ((hflip.1 h).2.symm.trans hc)]
        exact hlane
      · rw [mask_pop, Since.first_lanes hf hsince₁ hsince₂ ((cond.lane_batch _ _).trans hc)]
        exact hend
    | false =>
      obtain ⟨signal, hlane, hend⟩ := hagree₂.active (hflip.2 ⟨hi, hc⟩)
      rw [state_flip, hkeep₁ fun h => Bool.false_ne_true (hc.symm.trans (hpush.1 h).2)] at hlane
      refine ⟨signal, ?_, ?_⟩
      · rw [if_neg Bool.false_ne_true, state_pop]
        exact hlane
      · rw [mask_pop, Since.second_lanes hf hsince₁ hsince₂ hi ((cond.lane_batch _ _).trans hc)]
        exact hend
  · intro hi
    rw [hkeep₂ fun h => hi (hflip.1 h).1, hkeep₁ fun h => hi (hpush.1 h).1]

/-! ## Loops -/

/-- One turn: a lane that takes part does what its interpreter does, and any other lane keeps its
values and is out of the turns to come. -/
theorem turn_agrees (cond : Lanewise B n kind .bool) (r : Restores body)
    (h : Simulates true body lane) (hf : f.mask.Separate)
    (hg : body (f.restrict (cond.batch f.state)) = some g) :
    (f.mask.IsActive i → cond.lane (f.state.lane i) = true → ∃ signal,
      lane (f.state.lane i) = some (g.state.lane i, signal) ∧
        (signal = .normal ∧ g.mask.IsActive i ∨ signal = .broke ∧ ¬g.mask.IsActive i)) ∧
    (¬(f.mask.IsActive i ∧ cond.lane (f.state.lane i) = true) →
      g.state.lane i = f.state.lane i ∧ ¬g.mask.IsActive i) := by
  have hsince := r _ g hf.restrict hg
  have hagree := h _ g hf.restrict hg i
  refine ⟨fun hi hc => hagree.active ((isActive_restrict_batch cond).2 ⟨hi, hc⟩), fun hi => ?_⟩
  have hout : ¬(f.restrict (cond.batch f.state)).mask.IsActive i :=
    fun h => hi ((isActive_restrict_batch cond).1 h)
  exact ⟨hagree.inactive hout, fun h => hout (hsince.active i h)⟩

/-- Where no lane wants another turn, no lane's interpreter takes one. -/
theorem laneTurns_of_not_anyActive (cond : Lanewise B n kind .bool) {fuel : Nat}
    (hnone : ¬(f.restrict (cond.batch f.state)).mask.anyActive = true) (hi : f.mask.IsActive i) :
    laneTurns cond.lane lane fuel (f.state.lane i) = some ((f.state.lane i, .normal), 0) := by
  refine laneTurns_of_false (Bool.eq_false_iff.2 fun hc => hnone ?_)
  exact anyActive_eq_true.2 ⟨i, (isActive_restrict_batch cond).2 ⟨hi, hc⟩⟩

/-- The turns of a loop from a flow where some lanes may have left it: a lane still active takes
from there just the turns that its interpreter takes. -/
theorem turns_agree (cond : Lanewise B n kind .bool) (r : Restores body)
    (h : Simulates true body lane) {fuel taken : Nat} {res : Flow B n (Vars B n kind) × Nat}
    (hf : f.mask.Separate) (hres : turns cond.batch body fuel taken f = some res) :
    (f.mask.IsActive i → ∃ count, laneTurns cond.lane lane fuel (f.state.lane i) =
      some ((res.1.state.lane i, .normal), count)) ∧
    (¬f.mask.IsActive i → res.1.state.lane i = f.state.lane i) := by
  induction fuel generalizing f taken with
  | zero =>
    rw [turns] at hres
    split at hres
    case isTrue => cases hres
    case isFalse hnone =>
      obtain rfl := Option.some.inj hres
      exact ⟨fun hi => ⟨0, laneTurns_of_not_anyActive cond hnone hi⟩, fun _ => rfl⟩
  | succ fuel ih =>
    rw [turns] at hres
    split at hres
    case isFalse hnone =>
      obtain rfl := Option.some.inj hres
      exact ⟨fun hi => ⟨0, laneTurns_of_not_anyActive cond hnone hi⟩, fun _ => rfl⟩
    case isTrue =>
      obtain ⟨g, hg, hres⟩ := Option.bind_eq_some_iff.1 hres
      obtain ⟨hturn, hout⟩ := turn_agrees (i := i) cond r h hf hg
      obtain ⟨hactive, hinactive⟩ := ih (r _ g hf.restrict hg).separate hres
      by_cases hi : f.mask.IsActive i ∧ cond.lane (f.state.lane i) = true
      · refine ⟨fun _ => ?_, fun h => absurd hi.1 h⟩
        obtain ⟨signal, hlane, ⟨rfl, hi'⟩ | ⟨rfl, hi'⟩⟩ := hturn hi.1 hi.2
        · obtain ⟨count, hcount⟩ := hactive hi'
          refine ⟨count + 1, (laneTurns_of_normal hi.2 hlane).trans ?_⟩
          rw [hcount, Option.map_some]
        · rw [hinactive hi']
          exact ⟨1, laneTurns_of_broke hi.2 hlane⟩
      · -- a lane that does not take this turn takes none of the following ones
        obtain ⟨hkeep, hi'⟩ := hout hi
        have hres' : res.1.state.lane i = f.state.lane i := (hinactive hi').trans hkeep
        refine ⟨fun hf => ⟨0, ?_⟩, fun _ => hres'⟩
        rw [hres']
        exact laneTurns_of_false (Bool.eq_false_iff.2 fun hc => hi ⟨hf, hc⟩)

theorem simulates_loop (cond : Lanewise B n kind .bool) (r : Restores body)
    (h : Simulates true body lane) (fuel : Nat) :
    Simulates inLoop (fun f => f.repeatWhile fuel cond.batch body)
      fun env => (laneTurns cond.lane lane fuel env).map Prod.fst := by
  intro f g hf hg i
  have hmask : g.mask = f.mask := r.repeatWhile hf hg
  obtain ⟨res, hres, rfl⟩ := repeatWhile_eq_some.1 hg
  obtain ⟨hactive, hinactive⟩ := turns_agree (i := i) cond r h separate_enterLoop hres
  constructor
  · intro hi
    obtain ⟨count, hcount⟩ := hactive (isActive_enterLoop.2 hi)
    refine ⟨.normal, ?_, .inl ⟨rfl, ?_⟩⟩
    · rw [state_pop]
      exact congrArg (Option.map Prod.fst) hcount
    · rw [hmask]
      exact hi
  · intro hi
    rw [state_pop]
    exact hinactive fun hi' => hi (isActive_enterLoop.1 hi')

/-! ## Programs -/

namespace Program

variable [DecidableEq ι]

theorem simulates (p : Program B n kind) (fuel : Nat) (inLoop : Bool) :
    Simulates inLoop (p.run fuel) (p.runLane fuel inLoop) := by
  induction p generalizing inLoop with
  | skip =>
    intro f g hf hg i
    obtain rfl := Option.some.inj hg
    exact ⟨fun hi => ⟨.normal, rfl, .inl ⟨rfl, hi⟩⟩, fun _ => rfl⟩
  | assign x source => exact simulates_assign x source
  | retire cond => exact simulates_retire cond
  | seq first second ih₁ ih₂ =>
    exact simulates_seq (first.restores fuel) (second.restores fuel) (ih₁ inLoop) (ih₂ inLoop)
  | branch cond first second ih₁ ih₂ =>
    exact simulates_branch cond (first.restores fuel) (second.restores fuel) (ih₁ inLoop)
      (ih₂ inLoop)
  | loop cond body ih => exact simulates_loop cond (body.restores fuel) (ih true) fuel

/-- A finished run of a gated program gives each active lane the values that the interpreter
computes from its own, with the fuel of the run or more, and leaves it active unless that returns.
The other lanes keep their values. -/
theorem runLane_of_run {p : Program B n kind} {fuel : Nat} {f g : Flow B n (Vars B n kind)}
    (hf : f.mask.Separate) (hg : p.run fuel f = some g) (i : Fin (Batch.width B n)) :
    (f.mask.IsActive i → ∃ signal,
      (∀ laneFuel, fuel ≤ laneFuel →
        p.runLane laneFuel false (f.state.lane i) = some (g.state.lane i, signal)) ∧
      (g.mask.IsActive i ↔ signal ≠ .returned)) ∧
    (¬f.mask.IsActive i → ∀ x, (g.state x).lane i = (f.state x).lane i) := by
  obtain ⟨hactive, hinactive⟩ := p.simulates fuel false f g hf hg i
  refine ⟨fun hi => ?_, fun hi x => congrFun (hinactive hi) x⟩
  obtain ⟨signal, hlane, hend⟩ := hactive hi
  refine ⟨signal, fun laneFuel hle => runLane_of_le hle hlane, ?_⟩
  rcases hend with ⟨rfl, hi'⟩ | ⟨rfl, hi'⟩
  · exact ⟨fun _ h => Signal.noConfusion h, fun _ => hi'⟩
  · exact ⟨fun h => absurd h hi', fun h => absurd rfl h⟩

/-- Three lanes count up to five. The last one returns before, and the others break at limits of
their own, inside of a branch. -/
theorem runLane_of_run_counting :
    let count : Lanewise .scalar 3 (fun _ : Bool => .int) .int := .var false
    let limit : Lanewise .scalar 3 (fun _ : Bool => .int) .int := .var true
    let less := Lanewise.zip (Reg.lt .keep) (Lane.lt .keep) fun _ _ _ => rfl
    let next := Lanewise.zip (Reg.add .keep) (Lane.add .keep) (fun _ _ _ => rfl) count (.const 1)
    let p : Program .scalar 3 (fun _ : Bool => .int) :=
      .seq (.retire (less (.const 50) limit)) (.loop (less count (.const 5))
        (.seq (.assign false next) (.branch (less count limit) .skip (.retire (.const true)))))
    let f : Flow .scalar 3 (Vars .scalar 3 fun _ : Bool => .int) :=
      ⟨.fresh, fun x => ⟨if x then #v[1, 2, 100] else #v[0, 0, 0]⟩, []⟩
    ∃ g, f.mask.Separate ∧ p.run 2 f = some g ∧ (g.state false).toList = [1, 2, 0] ∧
      ∀ i, ∃ signal, p.runLane 2 false (f.state.lane i) = some (g.state.lane i, signal) ∧
        (g.mask.IsActive i ↔ signal ≠ .returned) := by
  intro count limit less next p f
  have hcount : (p.run 2 f).map (fun g => (g.state false).toList) = some [1, 2, 0] := by
    decide +kernel
  obtain ⟨g, hg, hlist⟩ := Option.map_eq_some_iff.1 hcount
  refine ⟨g, separate_fresh, hg, hlist, fun i => ?_⟩
  obtain ⟨signal, hlane, hend⟩ := (runLane_of_run separate_fresh hg i).1 isActive_fresh
  exact ⟨signal, hlane 2 (Nat.le_refl 2), hend⟩

end Program

end Wavefront.Gated
