import Mathlib.Data.Finset.Lattice.Fold
import Mathlib.Data.Fintype.Basic
import Mathlib.Order.Lattice.Nat
import Wavefront.Flow.Fuel
import Wavefront.Proofs.LockStep

/-!
# How often a loop turns

A loop in lock step turns as often as the most patient of its lanes wants it to. Each lane that is
active on entry has a number of turns of its own, that of its interpreter, and the loop ends if and
only if all of these are finite, after the greatest of them.

* `Flow.Takes` is a loop without its counter: a chain of so many runs of the body, each on the lanes
  that want it. `turns_eq_some` and `Takes.turns` say that this is what `Flow.turns` counts.
* `Takes.laneTakes` goes from the loop to the lanes. A lane that has left is out of all later turns,
  though the condition is still asked on it, so the last turn is the last one of some lane.
* `ends_of_laneEnds` goes from the lanes to the program, and is the converse of `runLane_of_run`:
  where the interpreters of all active lanes end, the run in lock step ends.

Main statement: `loop_turns`. It does not assume that the body ends at every turn: where all lanes
end, it does.
-/

namespace Wavefront

namespace Flow

variable {B : Backend} {n : Nat} {σ : Type} {cond : σ → Mask B n} {f g : Flow B n σ}

/-- Closing a conditional that is open logs nothing. -/
theorem log_pop (h : f.mask.depth ≠ 0) : f.pop.log = f.log := by
  rw [pop, if_neg h]

/-- So many turns of a loop, one after the other: before each of them some active lane wants it, and
it runs the body on the lanes that do. -/
inductive Takes (cond : σ → Mask B n) (body : Flow B n σ → Flow B n σ → Prop) :
    Nat → Flow B n σ → Flow B n σ → Prop
  | done {f : Flow B n σ} : Takes cond body 0 f f
  | turn {f g last : Flow B n σ} {count : Nat} :
    (f.restrict (cond f.state)).mask.anyActive = true → body (f.restrict (cond f.state)) g →
      Takes cond body count g last → Takes cond body (count + 1) f last

/-- No lane wants another turn. -/
def Exhausted (cond : σ → Mask B n) (f : Flow B n σ) : Prop :=
  (f.restrict (cond f.state)).mask.anyActive = false

/-- What the counter of a loop has counted. -/
theorem turns_eq_some {body : Flow B n σ → Option (Flow B n σ)} {fuel taken : Nat}
    {r : Flow B n σ × Nat} (h : turns cond body fuel taken f = some r) :
    ∃ count last, Takes cond (fun f g => body f = some g) count f last ∧ Exhausted cond last ∧
      r = (last.restrict (cond last.state), taken + count) := by
  induction fuel generalizing f taken with
  | zero =>
    rw [turns] at h
    split at h
    case isTrue => cases h
    case isFalse hnone =>
      obtain rfl := Option.some.inj h
      exact ⟨0, f, .done, Bool.eq_false_iff.2 hnone, rfl⟩
  | succ fuel ih =>
    rw [turns] at h
    split at h
    case isTrue hsome =>
      obtain ⟨g, hg, h⟩ := Option.bind_eq_some_iff.1 h
      obtain ⟨count, last, htakes, hend, rfl⟩ := ih h
      exact ⟨count + 1, last, .turn hsome hg htakes, hend,
        by rw [Nat.add_right_comm, Nat.add_assoc]⟩
    case isFalse hnone =>
      obtain rfl := Option.some.inj h
      exact ⟨0, f, .done, Bool.eq_false_iff.2 hnone, rfl⟩

theorem Takes.mono {body body' : Flow B n σ → Flow B n σ → Prop} {count : Nat}
    (hbody : ∀ f g, body f g → body' f g) (h : Takes cond body count f g) :
    Takes cond body' count f g := by
  induction h with
  | done => exact .done
  | turn hsome hg _ ih => exact .turn hsome (hbody _ _ hg) ih

/-- Some fuel is enough for every chain of turns, if more fuel keeps the answers of the body. -/
theorem Takes.turns {body : Nat → Flow B n σ → Option (Flow B n σ)}
    (hbody : ∀ fuel fuel', fuel ≤ fuel' → Extends (body fuel) (body fuel')) {count : Nat}
    {last : Flow B n σ} (h : Takes cond (fun f g => ∃ fuel, body fuel f = some g) count f last)
    (hend : Exhausted cond last) :
    ∃ fuel, ∀ taken, Flow.turns cond (body fuel) fuel taken f =
      some (last.restrict (cond last.state), taken + count) := by
  induction h with
  | done => exact ⟨0, fun taken => turns_of_inactive (Bool.eq_false_iff.1 hend) 0 taken⟩
  | @turn f g last count hsome hg _ ih =>
    obtain ⟨fuel₁, hg⟩ := hg
    obtain ⟨fuel₂, ih⟩ := ih hend
    refine ⟨max fuel₁ fuel₂ + 1, fun taken => ?_⟩
    rw [Flow.turns, if_pos hsome]
    refine Option.bind_eq_some_iff.2 ⟨g, hbody _ _ (by omega) _ _ hg, ?_⟩
    rw [turns_of_le (hbody fuel₂ _ (by omega)) (by omega) (ih (taken + 1)), Nat.add_right_comm,
      Nat.add_assoc]

end Flow

/-- More fuel keeps what code answers. -/
theorem Code.run_extends {B : Backend} {n : Nat} {σ : Type} (p : Code B n σ) {fuel fuel' : Nat}
    (hle : fuel ≤ fuel') : Flow.Extends (p.run fuel) (p.run fuel') := by
  induction p with
  | skip => exact .refl _
  | update change => exact .refl _
  | push cond => exact .refl _
  | flip => exact .refl _
  | pop => exact .refl _
  | retire cond => exact .refl _
  | seq first second ih₁ ih₂ =>
    intro f g h
    obtain ⟨f₁, hf₁, h⟩ := Option.bind_eq_some_iff.1 h
    exact Option.bind_eq_some_iff.2 ⟨f₁, ih₁ _ _ hf₁, ih₂ _ _ h⟩
  | branch cond first second ih₁ ih₂ => exact fun f => Flow.Extends.branch _ ih₁ ih₂ f
  | loop cond body ih => exact Flow.Extends.repeatWhile _ ih hle

namespace Gated

open Wavefront.Flow WriteMask

variable {ι : Type} {kind : ι → Kind} {B : Backend} {n : Nat} [DecidableEq ι]

namespace Program

variable {p body : Program B n kind} {cond : Lanewise B n kind .bool} {inLoop : Bool}
  {env env' : Env kind} {f g : Flow B n (Vars B n kind)} {count count' : Nat}
  {i : Fin (Batch.width B n)}

/-! ## Ends -/

/-- The program, run in lock step from `f`, ends at `g`. -/
def Ends (p : Program B n kind) (f g : Flow B n (Vars B n kind)) : Prop :=
  ∃ fuel, p.run fuel f = some g

/-- The interpreter, started on the values of one lane, ends with `r`. -/
def LaneEnds (p : Program B n kind) (inLoop : Bool) (env : Env kind) (r : Env kind × Signal) :
    Prop :=
  ∃ fuel, p.runLane fuel inLoop env = some r

/-- The interpreter of a loop, started on the values of one lane, ends after so many turns. -/
def LaneTakes (cond : Lanewise B n kind .bool) (body : Program B n kind) (env : Env kind)
    (count : Nat) : Prop :=
  ∃ fuel r, laneTurns cond.lane (body.runLane fuel true) fuel env = some (r, count)

/-- The loop, run in lock step from `f`, runs its body so many times, and then no lane wants another
turn. -/
def LoopTakes (cond : Lanewise B n kind .bool) (body : Program B n kind)
    (f : Flow B n (Vars B n kind)) (count : Nat) : Prop :=
  ∃ last, Takes cond.batch body.Ends count { f with mask := f.mask.enterLoop } last ∧
    Exhausted cond.batch last

theorem run_of_le (p : Program B n kind) {fuel fuel' : Nat} (hle : fuel ≤ fuel') :
    Extends (p.run fuel) (p.run fuel') :=
  p.code.run_extends hle

theorem LaneEnds.unique {r r' : Env kind × Signal} (h : p.LaneEnds inLoop env r)
    (h' : p.LaneEnds inLoop env r') : r = r' := by
  obtain ⟨fuel, h⟩ := h
  obtain ⟨fuel', h'⟩ := h'
  have h := runLane_of_le (Nat.le_max_left fuel fuel') h
  have h' := runLane_of_le (Nat.le_max_right fuel fuel') h'
  exact Option.some.inj (h.symm.trans h')

/-- What a lane's interpreter answers is what the run in lock step gives the lane. -/
theorem Ends.laneEnds (hg : p.Ends f g) (inLoop : Bool) (hf : f.mask.Separate)
    (hi : f.mask.IsActive i) :
    ∃ signal, p.LaneEnds inLoop (f.state.lane i) (g.state.lane i, signal) ∧
      (signal = .normal ∧ g.mask.IsActive i ∨ signal = .ofRetire inLoop ∧ ¬g.mask.IsActive i) := by
  obtain ⟨fuel, hg⟩ := hg
  obtain ⟨signal, hlane, hend⟩ := (p.simulates fuel inLoop f g hf hg i).active hi
  exact ⟨signal, ⟨fuel, hlane⟩, hend⟩

theorem Ends.since (hg : p.Ends f g) (hf : f.mask.Separate) : Since f.mask [] g.mask := by
  obtain ⟨fuel, hg⟩ := hg
  exact p.restores fuel f g hf hg

/-! ## Turns of one lane -/

theorem laneTakes_zero (hc : cond.lane env = false) : LaneTakes cond body env 0 :=
  ⟨0, _, laneTurns_of_false hc⟩

theorem laneTakes_succ (hc : cond.lane env = true) (hbody : body.LaneEnds true env (env', .normal))
    (h : LaneTakes cond body env' count) : LaneTakes cond body env (count + 1) := by
  obtain ⟨fuel₁, hbody⟩ := hbody
  obtain ⟨fuel₂, r, h⟩ := h
  have hbody := runLane_of_le (show fuel₁ ≤ max fuel₁ fuel₂ + 1 by omega) hbody
  have h := laneTurns_of_le (fun env r hr => runLane_of_le (show fuel₂ ≤ max fuel₁ fuel₂ + 1 by
    omega) hr) (show fuel₂ ≤ max fuel₁ fuel₂ by omega) h
  refine ⟨max fuel₁ fuel₂ + 1, r, (laneTurns_of_normal hc hbody).trans ?_⟩
  rw [h, Option.map_some]

/-- The turn in which a lane breaks counts. -/
theorem laneTakes_one (hc : cond.lane env = true) (hbody : body.LaneEnds true env (env', .broke)) :
    LaneTakes cond body env 1 := by
  obtain ⟨fuel, hbody⟩ := hbody
  have hbody := runLane_of_le (Nat.le_succ fuel) hbody
  exact ⟨fuel + 1, _, laneTurns_of_broke hc hbody⟩

theorem LaneTakes.unique (h : LaneTakes cond body env count) (h' : LaneTakes cond body env count') :
    count = count' := by
  obtain ⟨fuel, r, h⟩ := h
  obtain ⟨fuel', r', h'⟩ := h'
  have h := laneTurns_of_le (fun env r hr => runLane_of_le (Nat.le_max_left fuel fuel') hr)
    (Nat.le_max_left fuel fuel') h
  have h' := laneTurns_of_le (fun env r hr => runLane_of_le (Nat.le_max_right fuel fuel') hr)
    (Nat.le_max_right fuel fuel') h'
  exact congrArg Prod.snd (Option.some.inj (h.symm.trans h'))

/-- A lane that wants a turn runs the body to its end. If it does not leave there, it has one turn
less to go afterwards. -/
theorem LaneTakes.turn (h : LaneTakes cond body env count) (hc : cond.lane env = true) :
    ∃ r rest, body.LaneEnds true env r ∧ count = rest + 1 ∧
      (r.2 = .normal → LaneTakes cond body r.1 rest) := by
  obtain ⟨fuel, r, h⟩ := h
  cases fuel with
  | zero =>
    rw [laneTurns, if_pos hc] at h
    cases h
  | succ fuel =>
    rw [laneTurns, if_pos hc] at h
    obtain ⟨⟨env', signal⟩, hbody, h⟩ := Option.bind_eq_some_iff.1 h
    cases signal with
    | normal =>
      obtain ⟨t, ht, hr⟩ := Option.map_eq_some_iff.1 h
      have ht := laneTurns_of_le (fun env r hr => hr) (Nat.le_succ fuel) ht
      exact ⟨_, t.2, ⟨fuel + 1, hbody⟩, (congrArg Prod.snd hr).symm, fun _ => ⟨fuel + 1, t.1, ht⟩⟩
    | broke =>
      exact ⟨_, 0, ⟨fuel + 1, hbody⟩, (congrArg Prod.snd (Option.some.inj h)).symm,
        fun h => Signal.noConfusion h⟩
    | returned =>
      exact ⟨_, 0, ⟨fuel + 1, hbody⟩, (congrArg Prod.snd (Option.some.inj h)).symm,
        fun h => Signal.noConfusion h⟩

theorem laneEnds_loop_iff :
    (∃ r, (loop cond body).LaneEnds inLoop env r) ↔ ∃ count, LaneTakes cond body env count := by
  constructor
  · rintro ⟨r, fuel, h⟩
    obtain ⟨t, ht, -⟩ := Option.map_eq_some_iff.1 h
    exact ⟨t.2, fuel, t.1, ht⟩
  · rintro ⟨count, fuel, r, h⟩
    exact ⟨r, fuel, Option.map_eq_some_iff.2 ⟨(r, count), h, rfl⟩⟩

/-! ## From the loop to the lanes -/

/-- What a turn has to do with the turns of a lane. Either the lane goes on to the next turn, having
wanted this one, or this was its last one, or it had left before and took none. -/
theorem Ends.turn (hf : f.mask.Separate) (hg : body.Ends (f.restrict (cond.batch f.state)) g) :
    (f.mask.IsActive i → cond.lane (f.state.lane i) = true → ∃ signal,
      body.LaneEnds true (f.state.lane i) (g.state.lane i, signal) ∧
        (signal = .normal ∧ g.mask.IsActive i ∨ signal = .broke ∧ ¬g.mask.IsActive i)) ∧
    (g.mask.IsActive i → f.mask.IsActive i ∧ cond.lane (f.state.lane i) = true) := by
  obtain ⟨fuel, hg⟩ := hg
  obtain ⟨hturn, hout⟩ := turn_agrees (i := i) cond (body.restores fuel)
    (body.simulates fuel true) hf hg
  refine ⟨fun hi hc => ?_, fun hi => ?_⟩
  · obtain ⟨signal, hlane, hend⟩ := hturn hi hc
    exact ⟨signal, ⟨fuel, hlane⟩, hend⟩
  · by_contra hnot
    exact (hout hnot).2 hi

/-- A loop that has ended took no fewer turns than any of its lanes, and if it took some, then some
lane took as many. -/
theorem laneTakes_of_takes {last : Flow B n (Vars B n kind)}
    (h : Takes cond.batch body.Ends count f last) (hf : f.mask.Separate)
    (hend : Exhausted cond.batch last) :
    (∀ i, f.mask.IsActive i → ∃ own ≤ count, LaneTakes cond body (f.state.lane i) own) ∧
    (0 < count → ∃ i, f.mask.IsActive i ∧ LaneTakes cond body (f.state.lane i) count) := by
  induction h with
  | @done f =>
    refine ⟨fun i hi => ⟨0, Nat.le_refl 0, laneTakes_zero (Bool.eq_false_iff.2 fun hc => ?_)⟩,
      fun h => absurd h (Nat.lt_irrefl 0)⟩
    exact Bool.eq_false_iff.1 hend
      (anyActive_eq_true.2 ⟨i, (isActive_restrict_batch cond).2 ⟨hi, hc⟩⟩)
  | @turn f g last count hsome hg _ ih =>
    obtain ⟨hle, hmax⟩ := ih (hg.since hf.restrict).separate hend
    refine ⟨fun i hi => ?_, fun _ => ?_⟩
    · cases hc : cond.lane (f.state.lane i) with
      | false => exact ⟨0, Nat.zero_le _, laneTakes_zero hc⟩
      | true =>
        obtain ⟨signal, hlane, ⟨rfl, hi'⟩ | ⟨rfl, -⟩⟩ := (Ends.turn hf hg).1 hi hc
        · obtain ⟨own, hown, htakes⟩ := hle i hi'
          exact ⟨own + 1, Nat.succ_le_succ hown, laneTakes_succ hc hlane htakes⟩
        · exact ⟨1, Nat.succ_le_succ (Nat.zero_le _), laneTakes_one hc hlane⟩
    · rcases Nat.eq_zero_or_pos count with rfl | hpos
      · -- the last turn: some lane wants it, and has none after it
        obtain ⟨i, hi⟩ := anyActive_eq_true.1 hsome
        obtain ⟨hi, hc⟩ := (isActive_restrict_batch cond).1 hi
        obtain ⟨signal, hlane, ⟨rfl, hi'⟩ | ⟨rfl, -⟩⟩ := (Ends.turn hf hg).1 hi hc
        · obtain ⟨own, hown, htakes⟩ := hle i hi'
          obtain rfl := Nat.le_zero.1 hown
          exact ⟨i, hi, laneTakes_succ hc hlane htakes⟩
        · exact ⟨i, hi, laneTakes_one hc hlane⟩
      · -- the lane that takes all the turns to come was in this one, for no lane comes back
        obtain ⟨i, hi', htakes⟩ := hmax hpos
        obtain ⟨hi, hc⟩ := (Ends.turn hf hg).2 hi'
        obtain ⟨signal, hlane, ⟨rfl, -⟩ | ⟨rfl, hnot⟩⟩ := (Ends.turn hf hg).1 hi hc
        · exact ⟨i, hi, laneTakes_succ hc hlane htakes⟩
        · exact absurd hi' hnot

/-- The turns of a loop are the greatest number of turns that a lane active on entry takes. -/
theorem LoopTakes.eq_sup (h : LoopTakes cond body f count) {own : Fin (Batch.width B n) → Nat}
    (hown : ∀ i, f.mask.IsActive i → LaneTakes cond body (f.state.lane i) (own i)) :
    count = (Finset.univ.filter f.mask.IsActive).sup own := by
  obtain ⟨last, htakes, hend⟩ := h
  obtain ⟨hle, hmax⟩ := laneTakes_of_takes htakes separate_enterLoop hend
  apply Nat.le_antisymm
  · rcases Nat.eq_zero_or_pos count with rfl | hpos
    · exact Nat.zero_le _
    · obtain ⟨i, hi, hcount⟩ := hmax hpos
      have hi : f.mask.IsActive i := isActive_enterLoop.1 hi
      rw [hcount.unique (hown i hi)]
      exact Finset.le_sup (Finset.mem_filter.2 ⟨Finset.mem_univ i, hi⟩)
  · refine Finset.sup_le fun i hi => ?_
    have hi : f.mask.IsActive i := (Finset.mem_filter.1 hi).2
    obtain ⟨own', hle', hown'⟩ := hle i (isActive_enterLoop.2 hi)
    rwa [(hown i hi).unique hown']

/-! ## From the lanes to the program -/

/-- Where the interpreters of all active lanes end, the program ends. -/
def EndsWithLanes (p : Program B n kind) (inLoop : Bool) : Prop :=
  ∀ f : Flow B n (Vars B n kind), f.mask.Separate →
    (∀ i, f.mask.IsActive i → ∃ r, p.LaneEnds inLoop (f.state.lane i) r) → ∃ g, p.Ends f g

theorem EndsWithLanes.whenActive (h : p.EndsWithLanes inLoop) (hf : f.mask.Separate)
    (hlanes : ∀ i, f.mask.IsActive i → ∃ r, p.LaneEnds inLoop (f.state.lane i) r) :
    ∃ fuel g, f.whenActive (p.run fuel) = some g := by
  cases hsome : f.mask.anyActive with
  | false => exact ⟨0, f, if_neg (Bool.eq_false_iff.1 hsome)⟩
  | true =>
    obtain ⟨g, fuel, hg⟩ := h f hf hlanes
    exact ⟨fuel, g, (if_pos hsome).trans hg⟩

/-- A bound on the turns of the lanes is a bound on the turns of the loop: after each turn, the
lanes that are left have one less to go. -/
theorem exists_takes (hbody : body.EndsWithLanes true) (bound : Nat) (hf : f.mask.Separate)
    (h : ∀ i, f.mask.IsActive i → ∃ own ≤ bound, LaneTakes cond body (f.state.lane i) own) :
    ∃ count last, Takes cond.batch body.Ends count f last ∧ Exhausted cond.batch last := by
  induction bound generalizing f with
  | zero =>
    refine ⟨0, f, .done, Bool.eq_false_iff.2 fun hsome => ?_⟩
    obtain ⟨i, hi⟩ := anyActive_eq_true.1 hsome
    obtain ⟨hi, hc⟩ := (isActive_restrict_batch cond).1 hi
    obtain ⟨own, hown, htakes⟩ := h i hi
    obtain ⟨r, rest, -, rfl, -⟩ := htakes.turn hc
    exact Nat.not_succ_le_zero rest hown
  | succ bound ih =>
    cases hsome : (f.restrict (cond.batch f.state)).mask.anyActive with
    | false => exact ⟨0, f, .done, hsome⟩
    | true =>
      have hwants : ∀ i, (f.restrict (cond.batch f.state)).mask.IsActive i →
          ∃ r, body.LaneEnds true (f.state.lane i) r := by
        intro i hi
        obtain ⟨hi, hc⟩ := (isActive_restrict_batch cond).1 hi
        obtain ⟨own, -, htakes⟩ := h i hi
        obtain ⟨r, rest, hbody, -⟩ := htakes.turn hc
        exact ⟨r, hbody⟩
      obtain ⟨g, hg⟩ := hbody (f.restrict (cond.batch f.state)) hf.restrict hwants
      have hleft : ∀ i, g.mask.IsActive i →
          ∃ own ≤ bound, LaneTakes cond body (g.state.lane i) own := by
        intro i hi'
        obtain ⟨hi, hc⟩ := (Ends.turn hf hg).2 hi'
        obtain ⟨signal, hlane, ⟨rfl, -⟩ | ⟨-, hnot⟩⟩ := (Ends.turn hf hg).1 hi hc
        · obtain ⟨own, hown, htakes⟩ := h i hi
          obtain ⟨r, rest, hbody, rfl, hrest⟩ := htakes.turn hc
          obtain rfl := hbody.unique hlane
          exact ⟨rest, Nat.le_of_succ_le_succ hown, hrest rfl⟩
        · exact absurd hi' hnot
      obtain ⟨count, last, htakes, hend⟩ := ih (hg.since hf.restrict).separate hleft
      exact ⟨count + 1, last, .turn hsome hg htakes, hend⟩

/-- A loop that has run out of turns ends. -/
theorem LoopTakes.ends (h : LoopTakes cond body f count) : ∃ g, (loop cond body).Ends f g := by
  obtain ⟨last, htakes, hend⟩ := h
  obtain ⟨fuel, hturns⟩ := htakes.turns (fun _ _ => body.run_of_le) hend
  exact ⟨_, fuel, repeatWhile_eq_some.2 ⟨_, hturns 0, rfl⟩⟩

/-- A loop of which all active lanes have a number of turns ends after some number of turns. -/
theorem exists_loopTakes (hbody : body.EndsWithLanes true)
    (h : ∀ i, f.mask.IsActive i → ∃ count, LaneTakes cond body (f.state.lane i) count) :
    ∃ count, LoopTakes cond body f count := by
  choose! own hown using h
  have hbound : ∀ i, f.mask.enterLoop.IsActive i →
      ∃ count ≤ Finset.univ.sup own, LaneTakes cond body (f.state.lane i) count :=
    fun i hi => ⟨own i, Finset.le_sup (Finset.mem_univ i), hown i (isActive_enterLoop.1 hi)⟩
  obtain ⟨count, last, htakes, hend⟩ :=
    exists_takes (f := { f with mask := f.mask.enterLoop }) hbody _ separate_enterLoop hbound
  exact ⟨count, last, htakes, hend⟩

theorem EndsWithLanes.seq {first second : Program B n kind} (h₁ : first.EndsWithLanes inLoop)
    (h₂ : second.EndsWithLanes inLoop) : (Program.seq first second).EndsWithLanes inLoop := by
  intro f hf h
  have hfirst : ∀ i, f.mask.IsActive i → ∃ r, first.LaneEnds inLoop (f.state.lane i) r := by
    intro i hi
    obtain ⟨r, fuel, hr⟩ := h i hi
    obtain ⟨r', hr', -⟩ := Option.bind_eq_some_iff.1 hr
    exact ⟨r', fuel, hr'⟩
  obtain ⟨f₁, hf₁⟩ := h₁ f hf hfirst
  have hsince := hf₁.since hf
  -- a lane that is still active has gone on to the second part
  have hsecond : ∀ i, f₁.mask.IsActive i → ∃ r, second.LaneEnds inLoop (f₁.state.lane i) r := by
    intro i hi₁
    have hi := hsince.active i hi₁
    obtain ⟨signal, hlane, ⟨rfl, -⟩ | ⟨-, hnot⟩⟩ := hf₁.laneEnds inLoop hf hi
    · obtain ⟨r, fuel, hr⟩ := h i hi
      obtain ⟨r', hr', hr⟩ := Option.bind_eq_some_iff.1 hr
      obtain rfl := hlane.unique ⟨fuel, hr'⟩
      exact ⟨r, fuel, hr⟩
    · exact absurd hi₁ hnot
  obtain ⟨g, hg⟩ := h₂ f₁ hsince.separate hsecond
  obtain ⟨fuel₁, hf₁⟩ := hf₁
  obtain ⟨fuel₂, hg⟩ := hg
  exact ⟨g, max fuel₁ fuel₂, Option.bind_eq_some_iff.2
    ⟨f₁, first.run_of_le (Nat.le_max_left _ _) _ _ hf₁,
      second.run_of_le (Nat.le_max_right _ _) _ _ hg⟩⟩

theorem EndsWithLanes.branch {first second : Program B n kind} (cond : Lanewise B n kind .bool)
    (h₁ : first.EndsWithLanes inLoop) (h₂ : second.EndsWithLanes inLoop) :
    (Program.branch cond first second).EndsWithLanes inLoop := by
  intro f hf h
  have hfirst : ∀ i, (f.push (cond.batch f.state)).mask.IsActive i →
      ∃ r, first.LaneEnds inLoop (f.state.lane i) r := by
    intro i hi
    obtain ⟨hi, hc⟩ := (isActive_push_batch cond).1 hi
    obtain ⟨r, fuel, hr⟩ := h i hi
    rw [runLane, if_pos hc] at hr
    exact ⟨r, fuel, hr⟩
  obtain ⟨fuel₁, f₁, hf₁⟩ := h₁.whenActive hf.push hfirst
  have hsince : Since (f.mask.push (cond.batch f.state)) [] f₁.mask :=
    (first.restores fuel₁).whenActive _ _ hf.push hf₁
  have hsecond : ∀ i, f₁.flip.mask.IsActive i →
      ∃ r, second.LaneEnds inLoop (f₁.flip.state.lane i) r := by
    intro i hi
    rw [mask_flip, hsince.isActive_flip_push hf, cond.lane_batch] at hi
    obtain ⟨hi, hc⟩ := hi
    obtain ⟨r, fuel, hr⟩ := h i hi
    rw [runLane, if_neg (Bool.eq_false_iff.1 hc)] at hr
    -- the first arm, which the lane does not take, has left its values alone
    have hkeep : f₁.state.lane i = f.state.lane i :=
      ((first.simulates fuel₁ inLoop).whenActive _ _ hf.push hf₁ i).inactive fun hi =>
        Bool.eq_false_iff.1 hc ((isActive_push_batch cond).1 hi).2
    rw [state_flip, hkeep]
    exact ⟨r, fuel, hr⟩
  obtain ⟨fuel₂, f₂, hf₂⟩ := h₂.whenActive (mask_flip ▸ hsince.separate.flip) hsecond
  exact ⟨f₂.pop, max fuel₁ fuel₂, branch_eq_some.2 ⟨f₁, f₂,
    (first.run_of_le (Nat.le_max_left _ _)).whenActive _ _ hf₁,
    (second.run_of_le (Nat.le_max_right _ _)).whenActive _ _ hf₂, rfl⟩⟩

/-- Where the interpreters of all active lanes end, the run in lock step ends. -/
theorem ends_of_laneEnds (p : Program B n kind) (inLoop : Bool) : p.EndsWithLanes inLoop := by
  induction p generalizing inLoop with
  | skip => exact fun f _ _ => ⟨f, 0, rfl⟩
  | assign x source => exact fun f _ _ => ⟨_, 0, rfl⟩
  | retire cond => exact fun f _ _ => ⟨_, 0, rfl⟩
  | seq first second ih₁ ih₂ => exact .seq (ih₁ inLoop) (ih₂ inLoop)
  | branch cond first second ih₁ ih₂ => exact .branch cond (ih₁ inLoop) (ih₂ inLoop)
  | loop cond body ih =>
    intro f _ h
    obtain ⟨count, htakes⟩ := exists_loopTakes (ih true) fun i hi => laneEnds_loop_iff.1 (h i hi)
    exact htakes.ends

/-! ## Loops -/

/-- Turns leave the open conditionals as they are. -/
theorem frames_of_takes {last : Flow B n (Vars B n kind)}
    (h : Takes cond.batch body.Ends count f last) (hf : f.mask.Separate) :
    last.mask.frames = f.mask.frames := by
  induction h with
  | done => rfl
  | turn _ hg _ ih =>
    have hsince := hg.since hf.restrict
    exact (ih hsince.separate).trans hsince.frames

/-- A loop that has ended has run its body as often as its log says. -/
theorem Ends.loopTakes (h : (loop cond body).Ends f g) :
    ∃ count, LoopTakes cond body f count ∧ g.log.getLast? = some (.loopFinished count) := by
  obtain ⟨fuel, hg⟩ := h
  obtain ⟨r, hr, rfl⟩ := repeatWhile_eq_some.1 hg
  obtain ⟨count, last, htakes, hend, rfl⟩ := turns_eq_some hr
  have htakes := htakes.mono fun f g hg => (⟨fuel, hg⟩ : body.Ends f g)
  have hframes : last.mask.frames = f.mask.enterLoop.frames :=
    frames_of_takes htakes separate_enterLoop
  have hdepth : last.mask.depth ≠ 0 := by
    rw [depth, hframes]
    exact Nat.succ_ne_zero _
  refine ⟨count, ⟨last, htakes, hend⟩, ?_⟩
  rw [log_pop (by exact hdepth), List.getLast?_concat, Nat.zero_add]

/-- The turns of a loop are the greatest number of turns that a lane active on entry takes. -/
theorem loopTakes_iff : LoopTakes cond body f count ↔ ∃ own : Fin (Batch.width B n) → Nat,
    (∀ i, f.mask.IsActive i → LaneTakes cond body (f.state.lane i) (own i)) ∧
      count = (Finset.univ.filter f.mask.IsActive).sup own := by
  constructor
  · intro h
    obtain ⟨last, htakes, hend⟩ := id h
    obtain ⟨hle, -⟩ := laneTakes_of_takes htakes separate_enterLoop hend
    choose! own _ hown using hle
    have hown : ∀ i, f.mask.IsActive i → LaneTakes cond body (f.state.lane i) (own i) :=
      fun i hi => hown i (isActive_enterLoop.2 hi)
    exact ⟨own, hown, h.eq_sup hown⟩
  · rintro ⟨own, hown, rfl⟩
    obtain ⟨count, h⟩ := exists_loopTakes (ends_of_laneEnds body true) fun i hi => ⟨_, hown i hi⟩
    rwa [← h.eq_sup hown]

/-- A loop ends if and only if it ends on each lane that is active on entry, for that lane's values
alone. It has then run its body just as often as the greatest number of turns that one of these
lanes takes, and this is what it logs. It takes no turn if the condition fails on all of them at
once, and what the other lanes hold makes no difference. -/
theorem loop_turns (cond : Lanewise B n kind .bool) (body : Program B n kind)
    (f : Flow B n (Vars B n kind)) :
    ((∃ g, (loop cond body).Ends f g) ↔
      ∀ i, f.mask.IsActive i → ∃ r, (loop cond body).LaneEnds false (f.state.lane i) r) ∧
    (∀ g, (loop cond body).Ends f g → ∃ own : Fin (Batch.width B n) → Nat,
      (∀ i, f.mask.IsActive i → LaneTakes cond body (f.state.lane i) (own i)) ∧
      (∀ count, LoopTakes cond body f count ↔
        count = (Finset.univ.filter f.mask.IsActive).sup own) ∧
      g.log.getLast? =
        some (.loopFinished ((Finset.univ.filter f.mask.IsActive).sup own))) ∧
    ((∀ i, f.mask.IsActive i → cond.lane (f.state.lane i) = false) → LoopTakes cond body f 0) ∧
    ∀ f' : Flow B n (Vars B n kind), (∀ i, f'.mask.IsActive i ↔ f.mask.IsActive i) →
      (∀ i, f.mask.IsActive i → f'.state.lane i = f.state.lane i) →
      ∀ count, LoopTakes cond body f' count ↔ LoopTakes cond body f count := by
  refine ⟨⟨fun ⟨g, hg⟩ i hi => ?_, fun h => ?_⟩, fun g hg => ?_, fun h => ?_,
    fun f' hactive hstate count => ?_⟩
  · obtain ⟨count, htakes, -⟩ := hg.loopTakes
    obtain ⟨own, hown, -⟩ := loopTakes_iff.1 htakes
    exact laneEnds_loop_iff.2 ⟨own i, hown i hi⟩
  · obtain ⟨count, htakes⟩ :=
      exists_loopTakes (ends_of_laneEnds body true) fun i hi => laneEnds_loop_iff.1 (h i hi)
    exact htakes.ends
  · obtain ⟨count, htakes, hlog⟩ := hg.loopTakes
    obtain ⟨own, hown, rfl⟩ := loopTakes_iff.1 htakes
    exact ⟨own, hown, fun count => ⟨fun h => h.eq_sup hown, fun h => h ▸ htakes⟩, hlog⟩
  · exact loopTakes_iff.2
      ⟨fun _ => 0, fun i hi => laneTakes_zero (h i hi), (Finset.sup_bot _).symm⟩
  · have hlanes : Finset.univ.filter f'.mask.IsActive = Finset.univ.filter f.mask.IsActive :=
      Finset.filter_congr fun i _ => hactive i
    rw [loopTakes_iff, loopTakes_iff, hlanes]
    refine exists_congr fun own => and_congr_left fun _ => forall_congr' fun i => ?_
    rw [hactive]
    exact forall_congr' fun hi => by rw [hstate i hi]

/-- Three lanes count up to five, and break at limits of their own. The first takes three turns and
the second one. The last lane would take five but is not active, so there are three. -/
theorem loop_turns_counting :
    let count : Lanewise .scalar 3 (fun _ : Bool => .int) .int := .var false
    let limit : Lanewise .scalar 3 (fun _ : Bool => .int) .int := .var true
    let less := Lanewise.zip (Reg.lt .keep) (Lane.lt .keep) fun _ _ _ => rfl
    let next := Lanewise.zip (Reg.add .keep) (Lane.add .keep) (fun _ _ _ => rfl) count (.const 1)
    let body : Program .scalar 3 (fun _ : Bool => .int) :=
      .seq (.assign false next) (.branch (less count limit) .skip (.retire (.const true)))
    let f : Flow .scalar 3 (Vars .scalar 3 fun _ : Bool => .int) :=
      ⟨⟨⟨#v[true, true, false]⟩, ⟨#v[false, false, false]⟩, []⟩,
        fun x => ⟨if x then #v[100, 1, 100] else #v[2, 0, 0]⟩, []⟩
    (∃ g, (loop (less count (.const 5)) body).Ends f g ∧ g.log = [.loopFinished 3]) ∧
      LoopTakes (less count (.const 5)) body f 3 := by
  intro count limit less next body f
  have hlog : ((loop (less count (.const 5)) body).run 3 f).map Flow.log =
      some [.loopFinished 3] := by
    decide +kernel
  obtain ⟨g, hg, hlog⟩ := Option.map_eq_some_iff.1 hlog
  obtain ⟨-, hturns, -⟩ := loop_turns (less count (.const 5)) body f
  obtain ⟨own, -, hcount, hlast⟩ := hturns g ⟨3, hg⟩
  rw [hlog, List.getLast?_singleton, Option.some.injEq, Event.loopFinished.injEq] at hlast
  exact ⟨⟨g, ⟨3, hg⟩, hlog⟩, (hcount 3).2 hlast⟩

end Program

end Gated

end Wavefront
