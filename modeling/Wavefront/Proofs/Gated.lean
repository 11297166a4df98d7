import Mathlib.Logic.Function.Basic
import Wavefront.Proofs.Restoration

/-!
# Gated programs

A gated program changes its variables by masked assignment only. It is built from assignments,
retirements, branches and loops, and its expressions and conditions are *lane-wise*: each lane of
their value depends on the same lane of the variables. Such a program can be read in two ways.

* `Program.run` runs it in lock step, on batches, under a write mask.
* `Program.runLane` is an ordinary interpreter, for the values of a single lane. It knows of no
  mask: a branch goes one way, and a `retire` whose condition holds is the `break` of the innermost
  loop of the program, or its `return` outside of any.

Neither reading refers to the other. A `Lanewise` expression comes with a batch and a lane form and
the proof that they agree, and `Lanewise.zip` makes one of any operation that registers do lane by
lane.
-/

namespace Wavefront.Gated

variable {ι : Type} {kind : ι → Kind} {B : Backend} {n : Nat} {k k₁ k₂ : Kind}

/-! ## Variables and expressions -/

/-- A batch for every variable. -/
abbrev Vars (B : Backend) (n : Nat) (kind : ι → Kind) : Type := (x : ι) → Batch B (kind x) n

/-- A single value for every variable. -/
abbrev Env (kind : ι → Kind) : Type := (x : ι) → (kind x).Lane

/-- The values that the variables have on a lane. -/
def Vars.lane (s : Vars B n kind) (i : Fin (Batch.width B n)) : Env kind := fun x => (s x).lane i

theorem Vars.lane_update [DecidableEq ι] (s : Vars B n kind) (x : ι) (b : Batch B (kind x) n)
    (i : Fin (Batch.width B n)) :
    Vars.lane (Function.update s x b) i = Function.update (s.lane i) x (b.lane i) :=
  funext fun y => Function.apply_update (fun _ b => b.lane i) s x b y

/-- A total expression of which every lane depends on the same lane of the variables. -/
structure Lanewise (B : Backend) (n : Nat) (kind : ι → Kind) (k : Kind) where
  batch : Vars B n kind → Batch B k n
  lane : Env kind → k.Lane
  lane_batch : ∀ (s : Vars B n kind) (i : Fin (Batch.width B n)),
    (batch s).lane i = lane (s.lane i)

namespace Lanewise

/-- A variable. -/
def var (x : ι) : Lanewise B n kind (kind x) where
  batch s := s x
  lane env := env x
  lane_batch _ _ := rfl

/-- The same value in every lane. -/
def const (v : k.Lane) : Lanewise B n kind k where
  batch _ := Batch.splat v
  lane _ := v
  lane_batch _ i := Batch.lane_splat v i

/-- An operation that registers do lane by lane. -/
def zip (op : Reg B k₁ → Reg B k₂ → Reg B k) (lane : k₁.Lane → k₂.Lane → k.Lane)
    (h : ∀ a b j, (op a b).lane j = lane (a.lane j) (b.lane j)) (a : Lanewise B n kind k₁)
    (b : Lanewise B n kind k₂) : Lanewise B n kind k where
  batch s := Batch.zipRegs op (a.batch s) (b.batch s)
  lane env := lane (a.lane env) (b.lane env)
  lane_batch s i := by
    rw [Batch.lane_zipRegs, h, ← a.lane_batch, ← b.lane_batch]
    rfl

end Lanewise

/-- A gated program. -/
inductive Program (B : Backend) (n : Nat) (kind : ι → Kind)
  | skip
  | assign (x : ι) (source : Lanewise B n kind (kind x))
  | retire (cond : Lanewise B n kind .bool)
  | seq (first second : Program B n kind)
  | branch (cond : Lanewise B n kind .bool) (first second : Program B n kind)
  | loop (cond : Lanewise B n kind .bool) (body : Program B n kind)

/-! ## In lock step -/

namespace Program

variable [DecidableEq ι]

/-- The code of a program. -/
def code : Program B n kind → Code B n (Vars B n kind)
  | skip => .skip
  | assign x source =>
    .update fun w s => Function.update s x (w.assign (s x) (source.batch s))
  | retire cond => .retire fun _ s => cond.batch s
  | seq first second => .seq first.code second.code
  | branch cond first second => .branch (fun _ s => cond.batch s) first.code second.code
  | loop cond body => .loop cond.batch body.code

/-- Runs a program in lock step. -/
def run (fuel : Nat) (p : Program B n kind) (f : Flow B n (Vars B n kind)) :
    Option (Flow B n (Vars B n kind)) :=
  p.code.run fuel f

theorem depthAfter_code (p : Program B n kind) (d : Nat) : p.code.depthAfter d = some d := by
  induction p generalizing d with
  | skip => rfl
  | assign x source => rfl
  | retire cond => rfl
  | seq first second ih₁ ih₂ => rw [code, Code.depthAfter, ih₁, Option.bind_some, ih₂]
  | branch cond first second ih₁ ih₂ => rw [code, Code.depthAfter, if_pos ⟨ih₁ 0, ih₂ 0⟩]
  | loop cond body ih => rw [code, Code.depthAfter, if_pos (ih 0)]

/-- A gated program leaves no conditional open, so it hands back the mask it got. -/
theorem restores (p : Program B n kind) (fuel : Nat) : Flow.Restores (p.run fuel) :=
  Code.Balanced.restores (p.depthAfter_code 0) fuel

end Program

/-! ## On one lane -/

/-- How a statement ends. -/
inductive Signal
  | normal
  | broke
  | returned
deriving DecidableEq

/-- What a `retire` whose condition holds ends with. -/
def Signal.ofRetire (inLoop : Bool) : Signal := if inLoop then broke else returned

/-- Goes on after a statement, unless that left. -/
def goOn (next : Env kind → Option (Env kind × Signal)) (r : Env kind × Signal) :
    Option (Env kind × Signal) :=
  match r.2 with
  | .normal => next r.1
  | _ => some r

/-- The turns of a `while` on one lane, and how many there are. A turn in which the lane leaves the
loop counts. -/
def laneTurns (cond : Env kind → Bool) (body : Env kind → Option (Env kind × Signal)) :
    (fuel : Nat) → Env kind → Option ((Env kind × Signal) × Nat)
  | fuel, env =>
    if cond env then
      match fuel with
      | 0 => none
      | fuel + 1 =>
        (body env).bind fun r =>
          match r.2 with
          | .normal => (laneTurns cond body fuel r.1).map fun t => (t.1, t.2 + 1)
          | .broke => some ((r.1, .normal), 1)
          | .returned => some ((r.1, .returned), 1)
    else some ((env, .normal), 0)

section laneTurns

variable {cond : Env kind → Bool} {body : Env kind → Option (Env kind × Signal)} {fuel : Nat}
  {env env' : Env kind}

theorem laneTurns_of_false (hc : cond env = false) :
    laneTurns cond body fuel env = some ((env, .normal), 0) := by
  cases fuel <;> rw [laneTurns, hc, if_neg Bool.false_ne_true]

theorem laneTurns_of_normal (hc : cond env = true) (hbody : body env = some (env', .normal)) :
    laneTurns cond body (fuel + 1) env =
      (laneTurns cond body fuel env').map fun t => (t.1, t.2 + 1) := by
  rw [laneTurns, if_pos hc]
  simp only [hbody, Option.bind_some]

theorem laneTurns_of_broke (hc : cond env = true) (hbody : body env = some (env', .broke)) :
    laneTurns cond body (fuel + 1) env = some ((env', .normal), 1) := by
  rw [laneTurns, if_pos hc]
  simp only [hbody, Option.bind_some]

/-- More fuel, and a body with more answers, keep the turns. -/
theorem laneTurns_of_le {body' : Env kind → Option (Env kind × Signal)}
    (hbody : ∀ env r, body env = some r → body' env = some r) {fuel' : Nat} (hle : fuel ≤ fuel')
    {t : (Env kind × Signal) × Nat} (h : laneTurns cond body fuel env = some t) :
    laneTurns cond body' fuel' env = some t := by
  induction fuel generalizing fuel' env t with
  | zero =>
    cases hc : cond env with
    | false =>
      rw [laneTurns_of_false hc] at h ⊢
      exact h
    | true =>
      rw [laneTurns, if_pos hc] at h
      cases h
  | succ fuel ih =>
    obtain ⟨fuel', rfl⟩ : ∃ m, fuel' = m + 1 := ⟨fuel' - 1, by omega⟩
    cases hc : cond env with
    | false =>
      rw [laneTurns_of_false hc] at h ⊢
      exact h
    | true =>
      rw [laneTurns, if_pos hc] at h ⊢
      obtain ⟨⟨env', signal⟩, hr, h⟩ := Option.bind_eq_some_iff.1 h
      refine Option.bind_eq_some_iff.2 ⟨(env', signal), hbody _ _ hr, ?_⟩
      cases signal with
      | normal =>
        obtain ⟨t, ht, rfl⟩ := Option.map_eq_some_iff.1 h
        exact Option.map_eq_some_iff.2 ⟨t, ih (by omega) ht, rfl⟩
      | broke => exact h
      | returned => exact h

end laneTurns

namespace Program

variable [DecidableEq ι]

/-- Runs a program for the values of one lane. -/
def runLane (fuel : Nat) : (inLoop : Bool) → Program B n kind → Env kind →
    Option (Env kind × Signal)
  | _, skip, env => some (env, .normal)
  | _, assign x source, env => some (Function.update env x (source.lane env), .normal)
  | inLoop, retire cond, env =>
    some (env, if cond.lane env then .ofRetire inLoop else .normal)
  | inLoop, seq first second, env =>
    (first.runLane fuel inLoop env).bind (goOn (second.runLane fuel inLoop))
  | inLoop, branch cond first second, env =>
    if cond.lane env then first.runLane fuel inLoop env else second.runLane fuel inLoop env
  | _, loop cond body, env =>
    (laneTurns cond.lane (body.runLane fuel true) fuel env).map Prod.fst

/-- An answer is the answer for every larger fuel. -/
theorem runLane_of_le {p : Program B n kind} {fuel fuel' : Nat} (hle : fuel ≤ fuel')
    {inLoop : Bool} {env : Env kind} {r : Env kind × Signal}
    (h : p.runLane fuel inLoop env = some r) : p.runLane fuel' inLoop env = some r := by
  induction p generalizing inLoop env r with
  | skip => exact h
  | assign x source => exact h
  | retire cond => exact h
  | seq first second ih₁ ih₂ =>
    obtain ⟨⟨env', signal⟩, hr, h⟩ := Option.bind_eq_some_iff.1 h
    refine Option.bind_eq_some_iff.2 ⟨(env', signal), ih₁ hr, ?_⟩
    cases signal with
    | normal => exact ih₂ h
    | broke => exact h
    | returned => exact h
  | branch cond first second ih₁ ih₂ =>
    rw [runLane] at h ⊢
    split at h
    case isTrue hc => rw [if_pos hc]; exact ih₁ h
    case isFalse hc => rw [if_neg hc]; exact ih₂ h
  | loop cond body ih =>
    obtain ⟨t, ht, rfl⟩ := Option.map_eq_some_iff.1 h
    exact Option.map_eq_some_iff.2 ⟨t, laneTurns_of_le (fun env r hr => ih hr) hle ht, rfl⟩

end Program

end Wavefront.Gated
