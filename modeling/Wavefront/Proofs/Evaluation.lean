import Mathlib.Data.Option.Basic
import Wavefront.Proofs.Operations

/-!
# Evaluation keeps links

Expressions whose variables are linked come to values that are linked, if they use only what the
dialect of the link allows (`Expr.isIn`). Main statement: `Scopes.eval`, by induction on the
expression, together with lists of expressions and with probes.
-/

namespace Wavefront.Script

/-- The kind of the batch that a literal stands for. -/
def Literal.kind : Literal → Kind
  | single _ | double _ => .float
  | int _ => .int
  | uint _ => .uint
  | bool _ => .bool

mutual

/-- The expression uses only what the dialect allows. -/
def Expr.isIn (d : Dialect) : Expr → Bool
  | .var _ => true
  | .literal l => d.kinds l.kind
  | .zeros k | .lanes k _ | .slice k _ => d.kinds k
  | .array k _ | .parts k _ | .registers k _ => d.registers && d.kinds k
  | .unary op x => op.isIn d && x.isIn d
  | .binary _ x y => x.isIn d && y.isIn d
  | .ternary _ x y z => x.isIn d && y.isIn d && z.isIn d
  | .insert x _ _ _ => d.registers && x.isIn d
  | .readIndexed x index candidates => x.isIn d && index.isIn d && Expr.areIn d candidates
  | .spread p => d.probes && p.isIn d

/-- All expressions use only what the dialect allows. -/
def Expr.areIn (d : Dialect) : List Expr → Bool
  | [] => true
  | e :: es => e.isIn d && Expr.areIn d es

/-- The probe uses only what the dialect allows. A register by number is not comparable. -/
def Probe.isIn (d : Dialect) : Probe → Bool
  | .any e | .all e | .none e => e.isIn d
  | .count e => d.kinds .uint && e.isIn d
  | .equal x y => x.isIn d && y.isIn d
  | .lane e _ => e.isIn d
  | .extract .. => false

end

end Wavefront.Script

namespace Wavefront.Link

open Script

variable {B B' : Backend} {n n' : Nat} {L : Link B n B' n'}
variable {k : Kind}

/-! ## Constructors -/

section Constructors

theorem Outcome.of_eq {ε α : Type} {x : Except ε α} : L.Outcome Eq x x := by
  cases x with
  | ok => exact .ok rfl
  | error => exact .refused fun _ => rfl

theorem values_literal (l : Literal) (hl : L.dialect.kinds l.kind = true) :
    L.Values l.value l.value := by
  cases l with
  | single x => exact .mk hl (batches_single x)
  | double bits => exact .mk hl (batches_single _)
  | int w => exact .mk hl (batches_splat (k := .int) w)
  | uint w => exact .mk hl (batches_splat (k := .uint) w)
  | bool b => exact .mk hl (batches_splat (k := .bool) b)

/-- A list that starts over gives each lane the value for its number. -/
theorem outcome_cycle (values : List k.Lane) :
    L.Outcome L.Batches (cycle values : Except Failure (Batch B k n))
      (cycle values : Except Failure (Batch B' k n')) := by
  rw [cycle, cycle]
  split
  · rw [Batch.ofFnM_pure, Batch.ofFnM_pure]
    refine .ok fun i i' hi => ?_
    rw [Batch.lane_ofFn, Batch.lane_ofFn]
    simp only [L.aligned hi]
    exact same_of_eq rfl
  · exact outcome_malformed

theorem outcome_ofSlice (values : List k.Lane) :
    L.Outcome L.Batches (Batch.ofSlice values : Except Fault (Batch B k n))
      (Batch.ofSlice values : Except Fault (Batch B' k n')) := by
  refine .of_refusedWhen (Batch.ofSlice_refused values) (Batch.ofSlice_refused values)
    (fun hL => ?_) (fun hL => ?_) fun i i' hi => ?_
  · rw [hL.1]
  · rw [hL.1]
  · rw [Batch.lane_ofFn, Batch.lane_ofFn, L.aligned hi]
    exact same_of_eq rfl

/-- On one machine a batch is linked with itself. -/
theorem batches_refl {L : Link B n B n} (b : Batch B k n) : L.Batches b b := by
  intro i i' hi
  rw [Fin.ext (L.aligned hi)]
  exact same_of_eq rfl

/-- On one machine constructors that see nothing of the scope answer the same. -/
theorem outcome_array (hL : L.strict = true) (hk : L.dialect.kinds k = true)
    (values : List k.Lane) (s : Scope B n) (s' : Scope B' n') :
    L.Outcome L.Values ((Expr.array k values).eval s) ((Expr.array k values).eval s') := by
  obtain ⟨rfl, rfl⟩ := L.twin hL
  rw [Expr.eval, Expr.eval]
  exact Outcome.of_eq.map fun b _ h => h ▸ .mk hk (batches_refl b)

theorem outcome_parts (hL : L.strict = true) (hk : L.dialect.kinds k = true)
    (values : List (List k.Lane)) (s : Scope B n) (s' : Scope B' n') :
    L.Outcome L.Values ((Expr.parts k values).eval s) ((Expr.parts k values).eval s') := by
  obtain ⟨rfl, rfl⟩ := L.twin hL
  rw [Expr.eval, Expr.eval]
  split
  · exact Outcome.of_eq.map fun _ _ h => h ▸ .mk hk (batches_refl _)
  · exact outcome_malformed

theorem outcome_registers (hL : L.strict = true) (hk : L.dialect.kinds k = true)
    (values : List (List k.Lane)) (s : Scope B n) (s' : Scope B' n') :
    L.Outcome L.Values ((Expr.registers k values).eval s) ((Expr.registers k values).eval s') := by
  obtain ⟨rfl, rfl⟩ := L.twin hL
  rw [Expr.eval, Expr.eval]
  split
  · exact Outcome.of_eq.map fun _ _ h => h ▸ .mk hk (batches_refl _)
  · exact outcome_malformed

/-- On one machine a lane of a register is the same lane of both batches. -/
theorem Values.insert (hL : L.strict = true) {v : Value B n} {v' : Value B' n'}
    (h : L.Values v v') (r p : Nat) (value : Literal) :
    L.Outcome L.Values
      (do
        let value ← value.lane v.kind
        let reg ← v.batch.register r
        let reg ← reg.insert p value
        return ⟨v.kind, ← v.batch.setRegister r reg⟩)
      (do
        let value ← value.lane v'.kind
        let reg ← v'.batch.register r
        let reg ← reg.insert p value
        return ⟨v'.kind, ← v'.batch.setRegister r reg⟩) := by
  obtain ⟨rfl, rfl⟩ := L.twin hL
  obtain ⟨hk, h⟩ := h
  rename_i k b b'
  refine Outcome.of_eq.bind fun w _ hw => ?_
  subst hw
  by_cases hr : r < n
  case neg =>
    simp only [Batch.register, dif_neg hr]
    exact .refused fun _ => rfl
  by_cases hp : p < B.lanes
  case neg =>
    simp only [Batch.register, Reg.insert, dif_pos hr, dif_neg hp]
    exact .refused fun _ => rfl
  simp only [Batch.register, Reg.insert, Batch.setRegister, dif_pos hr, dif_pos hp]
  refine .ok (.mk hk fun i i' hi => ?_)
  obtain rfl : i = i' := Fin.ext (L.aligned hi)
  refine (Batch.lane_set_set b ⟨r, hr⟩ ⟨p, hp⟩ w i).symm ▸
    (Batch.lane_set_set b' ⟨r, hr⟩ ⟨p, hp⟩ w i).symm ▸ ?_
  split
  · exact same_of_eq rfl
  · exact h i i hi

end Constructors

/-! ## Probes -/

section Probes

/-- Lane values of one kind, which the dialect has, that are the same. -/
inductive LaneValues (L : Link B n B' n') : LaneValue → LaneValue → Prop
  | mk {k : Kind} (hk : L.dialect.kinds k = true) {x x' : k.Lane} (h : L.Same x x') :
    LaneValues L ⟨k, x⟩ ⟨k, x'⟩

theorem LaneValues.spread {v v' : LaneValue} (h : L.LaneValues v v') :
    L.Values (v.spread : Value B n) (v'.spread : Value B' n') := by
  obtain ⟨hk, h⟩ := h
  refine .mk hk fun i i' _ => ?_
  rwa [Batch.lane_splat, Batch.lane_splat]

/-- A reduction to a truth value. -/
theorem Values.reduced {v : Value B n} {v' : Value B' n'} (h : L.Values v v') (hL : L.Total)
    {f : Mask B n → Bool} {f' : Mask B' n' → Bool}
    (hf : ∀ {m m'}, L.Total → L.Batches m m' → f m = f' m') :
    L.Outcome L.LaneValues (v.as .bool >>= fun m => .ok (.ofBool (f m)))
      (v'.as .bool >>= fun m => .ok (.ofBool (f' m))) :=
  (h.as .bool).map fun _ _ hm => .mk L.bool (same_of_eq (k := .bool) (hf hL hm))

theorem Values.counted {v : Value B n} {v' : Value B' n'} (h : L.Values v v') (hL : L.Total)
    (hk : L.dialect.kinds .uint = true) :
    L.Outcome L.LaneValues (v.as .bool >>= fun m => .ok (.ofCount (Mask.count m)))
      (v'.as .bool >>= fun m => .ok (.ofCount (Mask.count m))) :=
  (h.as .bool).map fun _ _ hm =>
    .mk hk (same_of_eq (k := .uint) (congrArg (BitVec.ofNat 32) (hL.count_eq hm)))

theorem Values.compared {v w : Value B n} {v' w' : Value B' n'} (hv : L.Values v v')
    (hw : L.Values w w') (hL : L.Total) :
    L.Outcome L.LaneValues (w.as v.kind >>= fun b => .ok (.ofBool (v.batch.equal b)))
      (w'.as v'.kind >>= fun b => .ok (.ofBool (v'.batch.equal b))) := by
  obtain ⟨-, h⟩ := hv
  exact (hw.as _).map fun _ _ hb => .mk L.bool (same_of_eq (k := .bool) (hL.equal_eq h hb))

/-- A lane by its number. -/
theorem Values.getLane {v : Value B n} {v' : Value B' n'} (h : L.Values v v') (hL : L.Total)
    (i : Nat) :
    L.Outcome L.LaneValues (do return ⟨v.kind, ← v.batch.getLane i⟩ : Except Failure LaneValue)
      (do return ⟨v'.kind, ← v'.batch.getLane i⟩) := by
  obtain ⟨hk, h⟩ := h
  by_cases hi : i < Batch.width B n
  case pos =>
    have hi' : i < Batch.width B' n' := hL.1 ▸ hi
    simp only [Batch.getLane_of_lt _ hi, Batch.getLane_of_lt _ hi']
    exact .ok (.mk hk (h ⟨i, hi⟩ ⟨i, hi'⟩ (hL.2 _ _ rfl)))
  case neg =>
    have hi' : ¬i < Batch.width B' n' := hL.1 ▸ hi
    simp only [Batch.getLane_of_le _ (Nat.not_lt.1 hi), Batch.getLane_of_le _ (Nat.not_lt.1 hi'),
      hL.1]
    exact .refused fun _ => rfl

end Probes

/-! ## Expressions -/

/-- Variables that are related in one way are related in a weaker one. -/
theorem rel_imp {α α' : Type} {R S : α → α' → Prop} {x : Option α} {x' : Option α'}
    (h : Option.Rel R x x') (hRS : ∀ a a', R a a' → S a a') : Option.Rel S x x' := by
  cases h with
  | none => exact .none
  | some h => exact .some (hRS _ _ h)

/-- The same arithmetic, libraries as the link wants them, and linked variables of the same
names. -/
structure Scopes (L : Link B n B' n') (s : Scope B n) (s' : Scope B' n') : Prop where
  mode : s.mode = s'.mode
  library : L.Libraries s.library s'.library
  vars : ∀ name, Option.Rel L.Values (s.vars.lookup name) (s'.vars.lookup name)

section Expressions

variable {s : Scope B n} {s' : Scope B' n'}

theorem Scopes.get (h : L.Scopes s s') (name : String) :
    L.Outcome L.Values (s.get name) (s'.get name) := by
  have h := h.vars name
  rw [Scope.get, Scope.get]
  generalize s.vars.lookup name = v at h
  generalize s'.vars.lookup name = v' at h
  cases h with
  | none => exact outcome_malformed
  | some h => exact .ok h

mutual

/-- **Evaluation keeps links.** Linked variables lead to linked values; what else the link says
about refusals is in `Outcome`. -/
theorem Scopes.eval (h : L.Scopes s s') :
    (e : Expr) → e.isIn L.dialect = true → L.Outcome L.Values (e.eval s) (e.eval s')
  | .var name, _ => h.get name
  | .literal l, he => .ok (values_literal l he)
  | .zeros k, he => .ok (.mk he batches_zeros)
  | .lanes k values, he => (outcome_cycle values).map fun _ _ => .mk he
  | .slice k values, he => (outcome_ofSlice values).lift.map fun _ _ => .mk he
  | .array k values, he =>
    have he := Bool.and_eq_true_iff.1 he
    outcome_array (L.registers he.1) he.2 values s s'
  | .parts k values, he =>
    have he := Bool.and_eq_true_iff.1 he
    outcome_parts (L.registers he.1) he.2 values s s'
  | .registers k values, he =>
    have he := Bool.and_eq_true_iff.1 he
    outcome_registers (L.registers he.1) he.2 values s s'
  | .unary op x, he =>
    have he := Bool.and_eq_true_iff.1 he
    (h.eval x he.2).bind fun _ _ hx => hx.unary h.library op he.1
  | .binary op x y, he => by
    have he := Bool.and_eq_true_iff.1 he
    rw [Expr.eval, Expr.eval, h.mode]
    exact (h.eval x he.1).bind fun _ _ hx =>
      (h.eval y he.2).bind fun _ _ hy => hx.binary h.library hy op
  | .ternary op x y z, he =>
    have he := Bool.and_eq_true_iff.1 he
    have hxy := Bool.and_eq_true_iff.1 he.1
    (h.eval x hxy.1).bind fun _ _ hx => (h.eval y hxy.2).bind fun _ _ hy =>
      (h.eval z he.2).bind fun _ _ hz => hx.ternary h.library hy hz op
  | .insert x r p value, he =>
    have he := Bool.and_eq_true_iff.1 he
    (h.eval x he.2).bind fun _ _ hx => hx.insert (L.registers he.1) r p value
  | .readIndexed x index candidates, he =>
    have he := Bool.and_eq_true_iff.1 he
    have hxi := Bool.and_eq_true_iff.1 he.1
    (h.eval x hxi.1).bind fun _ _ hx =>
      (h.eval index hxi.2).bind fun _ _ hindex =>
        (h.evalAll candidates he.2).bind fun _ _ hc => hx.readIndexed hindex hc
  | .spread p, he =>
    have he := Bool.and_eq_true_iff.1 he
    (h.probe (L.probes he.1) p he.2).map fun _ _ => LaneValues.spread

theorem Scopes.evalAll (h : L.Scopes s s') :
    (es : List Expr) → Expr.areIn L.dialect es = true →
      L.Outcome (List.Forall₂ L.Values) (Expr.evalAll s es) (Expr.evalAll s' es)
  | [], _ => .ok .nil
  | e :: es, he =>
    have he := Bool.and_eq_true_iff.1 he
    (h.eval e he.1).bind fun _ _ hv =>
      (h.evalAll es he.2).map fun _ _ hvs => .cons hv hvs

/-- A probe shows lanes that its reader did not name, so all of them have to be compared. -/
theorem Scopes.probe (h : L.Scopes s s') (hL : L.Total) :
    (p : Probe) → p.isIn L.dialect = true → L.Outcome L.LaneValues (p.eval s) (p.eval s')
  | .any e, he => (h.eval e he).bind fun _ _ hv => hv.reduced hL Total.any_eq
  | .all e, he => (h.eval e he).bind fun _ _ hv => hv.reduced hL Total.all_eq
  | .none e, he => (h.eval e he).bind fun _ _ hv =>
    hv.reduced hL fun hL hm => congrArg Bool.not (hL.any_eq hm)
  | .count e, he =>
    have he := Bool.and_eq_true_iff.1 he
    (h.eval e he.2).bind fun _ _ hv => hv.counted hL he.1
  | .equal x y, he =>
    have he := Bool.and_eq_true_iff.1 he
    (h.eval x he.1).bind fun _ _ hx =>
      (h.eval y he.2).bind fun _ _ hy => hx.compared hy hL
  | .lane e i, he => (h.eval e he).bind fun _ _ hv => hv.getLane hL i

end

end Expressions

end Wavefront.Link
