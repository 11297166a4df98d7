import Mathlib.Data.List.Forall2
import Wavefront.Script.Eval
import Wavefront.Proofs.Link

/-!
# Operations of expressions keep links

Operands that are linked lead to values that are linked, with one lemma for each table of
operations: `Values.unary`, `Values.binary`, `Values.ternary`, `Values.readIndexed`. An
operation is allowed if the dialect of the link allows it (`Unary.isIn`).

An operation can be refused, and an `Outcome` says what a link tells about that. What is refused may
depend on any lane, a divisor or an index for example, so a link that leaves lanes out only relates
answers. A link that compares all lanes also relates refusals: either both computations are refused,
for the same reason, or none is (`Outcome.agree`).
-/

namespace Wavefront.Script

/-- Operations that lead to another kind, show a pattern or look beyond a lane have to be
allowed. -/
def Unary.isIn (d : Dialect) : Unary → Bool
  | cast target => d.kinds target
  | toBits s => d.patterns && d.kinds (.number (.integer s))
  | ofBits _ => d.kinds .float
  | dfdx | dfdy | fwidth => d.derivatives
  | _ => true

/-- Two answers that are related, or two failures for the same reason. -/
inductive Agree {ε α α' : Type} (R : α → α' → Prop) : Except ε α → Except ε α' → Prop
  | ok {a : α} {a' : α'} (h : R a a') : Agree R (.ok a) (.ok a')
  | error (e : ε) : Agree R (.error e) (.error e)

theorem Agree.of_ok {ε α α' : Type} {R : α → α' → Prop} {a : α} {a' : α'}
    (h : Agree R (.ok a : Except ε α) (.ok a')) : R a a' := by
  cases h with
  | ok h => exact h

theorem Agree.imp {ε α α' : Type} {R S : α → α' → Prop} {x : Except ε α} {x' : Except ε α'}
    (h : Agree R x x') (hRS : ∀ a a', R a a' → S a a') : Agree S x x' := by
  cases h with
  | ok h => exact .ok (hRS _ _ h)
  | error e => exact .error e

end Wavefront.Script

namespace Wavefront.Link

open Script

variable {B B' : Backend} {n n' : Nat} {L : Link B n B' n'}
variable {k l : Kind} {t : Number} {s : Signedness} {d : Denormals} {lib lib' : MathLibrary}

/-! ## Outcomes -/

section Outcomes

variable {ε α α' β β' : Type} {R : α → α' → Prop} {S : β → β' → Prop}

/-- Two answers are related; two refusals have the same reason if the link compares all lanes, and
if it does there is no other case. -/
inductive Outcome (L : Link B n B' n') (R : α → α' → Prop) : Except ε α → Except ε α' → Prop
  | ok {a : α} {a' : α'} (h : R a a') : Outcome L R (.ok a) (.ok a')
  | refused {e e' : ε} (h : L.Total → e = e') : Outcome L R (.error e) (.error e')
  | left {a : α} {e : ε} (h : ¬L.Total) : Outcome L R (.ok a) (.error e)
  | right {a : α'} {e : ε} (h : ¬L.Total) : Outcome L R (.error e) (.ok a)

theorem Outcome.bind {x : Except ε α} {x' : Except ε α'} {f : α → Except ε β}
    {f' : α' → Except ε β'} (h : L.Outcome R x x')
    (hf : ∀ a a', R a a' → L.Outcome S (f a) (f' a')) : L.Outcome S (x >>= f) (x' >>= f') := by
  cases h with
  | ok h => exact hf _ _ h
  | refused h => exact .refused h
  | left h =>
    rename_i a e
    show L.Outcome S (f a) (.error e)
    cases f a with
    | ok => exact .left h
    | error => exact .refused fun hL => absurd hL h
  | right h =>
    rename_i a e
    show L.Outcome S (.error e) (f' a)
    cases f' a with
    | ok => exact .right h
    | error => exact .refused fun hL => absurd hL h

/-- What an answer is turned into does not matter to refusals. -/
theorem Outcome.map {x : Except ε α} {x' : Except ε α'} {f : α → β} {f' : α' → β'}
    (h : L.Outcome R x x') (hf : ∀ a a', R a a' → S (f a) (f' a')) :
    L.Outcome S (x >>= fun a => .ok (f a)) (x' >>= fun a => .ok (f' a)) :=
  h.bind fun a a' ha => .ok (hf a a' ha)

/-- A refusal of the library is a failure of the evaluation. -/
theorem Outcome.lift {x : Except Fault α} {x' : Except Fault α'} (h : L.Outcome R x x') :
    L.Outcome R (liftM x : Except Failure α) (liftM x' : Except Failure α') := by
  cases h with
  | ok h => exact .ok h
  | refused h => exact .refused fun hL => congrArg Failure.fault (h hL)
  | left h => exact .left h
  | right h => exact .right h

theorem outcome_malformed :
    L.Outcome R (.error Failure.malformed) (.error Failure.malformed) := .refused fun _ => rfl

/-- Two refusals under conditions that all lanes together decide. -/
theorem Outcome.of_refusedWhen {p p' : Prop} {e e' : ε} {v : α} {v' : α'} {x : Except ε α}
    {x' : Except ε α'} (hx : RefusedWhen p e v x) (hx' : RefusedWhen p' e' v' x')
    (hp : L.Total → (p ↔ p')) (he : L.Total → e = e') (h : R v v') : L.Outcome R x x' := by
  by_cases hp₁ : p <;> by_cases hp₂ : p'
  · rw [hx.1 hp₁, hx'.1 hp₂]
    exact .refused he
  · rw [hx.1 hp₁, hx'.2 hp₂]
    exact .right fun hL => hp₂ ((hp hL).1 hp₁)
  · rw [hx.2 hp₁, hx'.1 hp₂]
    exact .left fun hL => hp₁ ((hp hL).2 hp₂)
  · rw [hx.2 hp₁, hx'.2 hp₂]
    exact .ok h

/-- If all lanes are compared, what one computation refuses the other refuses too. -/
theorem Outcome.agree {x : Except ε α} {x' : Except ε α'} (h : L.Outcome R x x') (hL : L.Total) :
    Agree R x x' := by
  cases h with
  | ok h => exact .ok h
  | refused h => exact h hL ▸ .error _
  | left h => exact absurd hL h
  | right h => exact absurd hL h

/-- Lists are answered element by element. -/
theorem Outcome.mapM {f : α → Except ε β} {f' : α' → Except ε β'}
    (hf : ∀ a a', R a a' → L.Outcome S (f a) (f' a')) {xs : List α} {xs' : List α'}
    (h : List.Forall₂ R xs xs') : L.Outcome (List.Forall₂ S) (xs.mapM f) (xs'.mapM f') := by
  induction h with
  | nil => exact .ok .nil
  | cons ha _ ih =>
    rw [List.mapM_cons, List.mapM_cons]
    exact (hf _ _ ha).bind fun b b' hb => ih.map fun bs bs' hbs => .cons hb hbs

end Outcomes

/-! ## Values -/

/-- Values of one kind, which the dialect has, with linked lanes. -/
inductive Values (L : Link B n B' n') : Value B n → Value B' n' → Prop
  | mk {k : Kind} (hk : L.dialect.kinds k = true) {b : Batch B k n} {b' : Batch B' k n'}
    (h : L.Batches b b') : Values L ⟨k, b⟩ ⟨k, b'⟩

theorem Values.as {v : Value B n} {v' : Value B' n'} (h : L.Values v v') (k : Kind) :
    L.Outcome L.Batches (v.as k) (v'.as k) := by
  obtain ⟨-, h⟩ := h
  rename_i l b b'
  by_cases hkind : l = k
  · subst hkind
    rw [Value.as, Value.as, dif_pos rfl, dif_pos rfl]
    exact .ok h
  · rw [Value.as, Value.as, dif_neg hkind, dif_neg hkind]
    exact outcome_malformed

/-- An operation on a second operand of the kind of the first. -/
theorem Values.withSecond {v : Value B n} {v' : Value B' n'} (h : L.Values v v')
    (hl : L.dialect.kinds l = true) {f : Batch B k n → Batch B l n}
    {f' : Batch B' k n' → Batch B' l n'}
    (hf : ∀ b b', L.Batches b b' → L.Batches (f b) (f' b')) :
    L.Outcome L.Values (v.as k >>= fun b => .ok ⟨l, f b⟩) (v'.as k >>= fun b => .ok ⟨l, f' b⟩) :=
  (h.as k).map fun b b' hb => .mk hl (hf b b' hb)

/-! ## Operations on one value -/

theorem Values.unary_float (hlib : L.Trusts lib) (op : Unary) (hop : op.isIn L.dialect = true)
    (hk : L.dialect.kinds .float = true) {x : Batch B .float n} {x' : Batch B' .float n'}
    (h : L.Batches x x') :
    L.Outcome L.Values (op.apply lib ⟨.float, x⟩) (op.apply lib ⟨.float, x'⟩) := by
  cases op with
  | neg => exact .ok (.mk hk h.neg)
  | not => exact outcome_malformed
  | abs => exact .ok (.mk hk (h.abs hlib))
  | sign => exact .ok (.mk hk h.sign)
  | floor => exact .ok (.mk hk (h.floor hlib))
  | trunc => exact .ok (.mk hk (h.trunc hlib))
  | round => exact .ok (.mk hk (h.round hlib))
  | roundEven => exact .ok (.mk hk (h.roundEven hlib))
  | ceil => exact .ok (.mk hk (h.ceil hlib))
  | fract => exact .ok (.mk hk (h.fract hlib))
  | modfFract => exact .ok (.mk hk (h.modfFract hlib))
  | modfWhole => exact .ok (.mk hk (h.trunc hlib))
  | isNaN => exact .ok (.mk L.bool h.isNaN)
  | isInfinite => exact .ok (.mk L.bool (h.isInfinite hlib))
  | radians => exact .ok (.mk hk h.radians)
  | degrees => exact .ok (.mk hk h.degrees)
  | elementary f => exact .ok (.mk hk (h.elementary hlib f))
  | sqrt => exact .ok (.mk hk (h.sqrt hlib))
  | inverseSqrt => exact .ok (.mk hk (h.inverseSqrt hlib))
  | length => exact .ok (.mk hk (h.abs hlib))
  | normalize => exact .ok (.mk hk h.normalize)
  | dfdx => exact .ok (.mk hk (h.dfdx hop))
  | dfdy => exact .ok (.mk hk (h.dfdy hop))
  | fwidth => exact .ok (.mk hk (h.fwidth hlib hop))
  | cast target => exact .ok (.mk hop (h.cast target))
  | toBits s =>
    obtain ⟨hp, hs⟩ := Bool.and_eq_true_iff.1 hop
    exact .ok (.mk hs (h.toBits (L.patterns hp)))
  | ofBits s => exact (Values.mk hk h).withSecond hop fun _ _ h => h.ofBits
  | shiftLeft count => exact outcome_malformed
  | shiftRight count => exact outcome_malformed

theorem Values.unary_integer (op : Unary) (hop : op.isIn L.dialect = true)
    (hk : L.dialect.kinds (.number (.integer s)) = true) {x : Batch B (.number (.integer s)) n}
    {x' : Batch B' (.number (.integer s)) n'} (h : L.Batches x x') :
    L.Outcome L.Values (op.apply lib ⟨_, x⟩) (op.apply lib' ⟨_, x'⟩) := by
  cases op with
  | neg =>
    cases s with
    | signed => exact .ok (.mk hk h.wordNeg)
    | unsigned => exact outcome_malformed
  | not => exact .ok (.mk hk h.not)
  | abs =>
    cases s with
    | signed => exact .ok (.mk hk h.wordAbs)
    | unsigned => exact outcome_malformed
  | sign =>
    cases s with
    | signed => exact .ok (.mk hk h.wordSign)
    | unsigned => exact outcome_malformed
  | cast target => exact .ok (.mk hop (h.cast target))
  | ofBits s => exact (Values.mk hk h).withSecond hop fun _ _ h => h.ofBits
  | shiftLeft count => exact .ok (.mk hk (h.shiftLeft count))
  | shiftRight count => exact .ok (.mk hk (h.shiftRight count))
  | _ => exact outcome_malformed

theorem Values.unary_bool (op : Unary) (hop : op.isIn L.dialect = true) {x : Mask B n}
    {x' : Mask B' n'} (h : L.Batches x x') :
    L.Outcome L.Values (op.apply lib ⟨.bool, x⟩) (op.apply lib' ⟨.bool, x'⟩) := by
  cases op with
  | not => exact .ok (.mk L.bool h.maskNot)
  | cast target => exact .ok (.mk hop (h.cast target))
  | ofBits s => exact (Values.mk L.bool h).withSecond hop fun _ _ h => h.ofBits
  | _ => exact outcome_malformed

theorem Values.unary (hlib : L.Libraries lib lib') {v : Value B n} {v' : Value B' n'}
    (h : L.Values v v') (op : Unary) (hop : op.isIn L.dialect = true) :
    L.Outcome L.Values (op.apply lib v) (op.apply lib' v') := by
  obtain ⟨hk, h⟩ := h
  rename_i k _ _
  match k with
  | .float =>
    obtain ⟨rfl, htrusts⟩ := hlib hk
    exact unary_float htrusts op hop hk h
  | .number (.integer _) => exact unary_integer op hop hk h
  | .bool => exact unary_bool op hop h

/-! ## Operations on two values -/

theorem Values.compare {v w : Value B n} {v' w' : Value B' n'} (hv : L.Values v v')
    (hw : L.Values w w') (c : Comparison) :
    L.Outcome L.Batches (c.apply d v w) (c.apply d v' w') := by
  obtain ⟨-, h⟩ := hv
  rename_i k x x'
  match k with
  | .number t =>
    have hw := hw.as (.number t)
    cases c with
    | eq => exact hw.map fun _ _ hy => h.cmpEq hy
    | ne => exact hw.map fun _ _ hy => h.cmpNe hy
    | lt => exact hw.map fun _ _ hy => h.cmpLt hy
    | le => exact hw.map fun _ _ hy => h.cmpLe hy
    | gt => exact hw.map fun _ _ hy => h.cmpGt hy
    | ge => exact hw.map fun _ _ hy => h.cmpGe hy
  | .bool =>
    have hw := hw.as .bool
    cases c with
    | eq => exact hw.map fun _ _ hy => h.maskEq hy
    | ne => exact hw.map fun _ _ hy => h.maskXor hy
    | _ => exact outcome_malformed

/-- A word division depends on all lanes of the divisor for being refused. -/
theorem Batches.outcome_of_divisor {x y : Batch B (.number (.integer s)) n}
    {x' y' : Batch B' (.number (.integer s)) n'} (hx : L.Batches x x') (hy : L.Batches y y')
    {g : Word → Word → Word} {e : Fault} {r : Except Fault (Batch B (.number (.integer s)) n)}
    {r' : Except Fault (Batch B' (.number (.integer s)) n')}
    (h : RefusedWhen (∃ i, y.lane i = (0 : Word)) e (Batch.ofFn fun i => g (x.lane i) (y.lane i)) r)
    (h' : RefusedWhen (∃ i, y'.lane i = (0 : Word)) e
      (Batch.ofFn fun i => g (x'.lane i) (y'.lane i)) r') :
    L.Outcome L.Batches r r' := by
  refine .of_refusedWhen h h' (fun hL => ?_) (fun _ => rfl) fun i i' hi => ?_
  · rw [← Batch.mem_toList, ← Batch.mem_toList, hL.toList_eq (by simp) hy]
  · rw [Batch.lane_ofFn, Batch.lane_ofFn]
    exact (hx i i' hi).map₂ (k := .number (.integer s)) (l := .number (.integer s))
      (m := .number (.integer s)) (fun _ _ _ _ _ => .congr₂_ne_float (k := .number (.integer s))
        (l := .number (.integer s)) (by simp) g) (hy i i' hi)

theorem Values.binary_float (hlib : L.Trusts lib) {x : Batch B .float n} {x' : Batch B' .float n'}
    (hk : L.dialect.kinds .float = true) (h : L.Batches x x') {w : Value B n} {w' : Value B' n'}
    (hw : L.Values w w') (op : Binary) :
    L.Outcome L.Values (op.apply lib d ⟨.float, x⟩ w) (op.apply lib d ⟨.float, x'⟩ w') := by
  cases op with
  | add => exact hw.withSecond hk fun _ _ hy => h.add hy
  | sub => exact hw.withSecond hk fun _ _ hy => h.sub hy
  | mul => exact hw.withSecond hk fun _ _ hy => h.mul hy
  | div => exact hw.withSecond hk fun _ _ hy => h.quotient hy
  | compare c => exact ((Values.mk hk h).compare hw c).map fun _ _ => .mk L.bool
  | min => exact hw.withSecond hk fun _ _ hy => h.min hy
  | max => exact hw.withSecond hk fun _ _ hy => h.max hy
  | modulo => exact hw.withSecond hk fun _ _ hy => h.modulo hlib hy
  | step => exact hw.withSecond hk fun _ _ hy => h.step hy
  | atan2 => exact hw.withSecond hk fun _ _ hy => h.atan2 hlib hy
  | pow => exact hw.withSecond hk fun _ _ hy => h.pow hlib hy
  | distance => exact hw.withSecond hk fun _ _ hy => h.distance hlib hy
  | dot => exact hw.withSecond hk fun _ _ hy => h.dot hy
  | reflect => exact hw.withSecond hk fun _ _ hy => h.reflect hy
  | _ => exact outcome_malformed

theorem Values.binary_integer {x : Batch B (.number (.integer s)) n}
    {x' : Batch B' (.number (.integer s)) n'} (hk : L.dialect.kinds (.number (.integer s)) = true)
    (h : L.Batches x x') {w : Value B n} {w' : Value B' n'} (hw : L.Values w w') (op : Binary) :
    L.Outcome L.Values (op.apply lib d ⟨_, x⟩ w) (op.apply lib' d ⟨_, x'⟩ w') := by
  cases op with
  | add => exact hw.withSecond hk fun _ _ hy => h.add hy
  | sub => exact hw.withSecond hk fun _ _ hy => h.sub hy
  | mul => exact hw.withSecond hk fun _ _ hy => h.mul hy
  | div =>
    refine (hw.as _).bind fun y y' hy => Outcome.map (Outcome.lift ?_) fun _ _ => .mk hk
    exact h.outcome_of_divisor hy (Batch.wordQuotient_refused x y)
      (Batch.wordQuotient_refused x' y')
  | rem =>
    refine (hw.as _).bind fun y y' hy => Outcome.map (Outcome.lift ?_) fun _ _ => .mk hk
    exact h.outcome_of_divisor hy (Batch.remainder_refused x y) (Batch.remainder_refused x' y')
  | and => exact hw.withSecond hk fun _ _ hy => h.and hy
  | or => exact hw.withSecond hk fun _ _ hy => h.or hy
  | xor => exact hw.withSecond hk fun _ _ hy => h.xor hy
  | compare c => exact ((Values.mk hk h).compare hw c).map fun _ _ => .mk L.bool
  | min => exact hw.withSecond hk fun _ _ hy => h.min hy
  | max => exact hw.withSecond hk fun _ _ hy => h.max hy
  | _ => exact outcome_malformed

theorem Values.binary_bool {x : Mask B n} {x' : Mask B' n'} (h : L.Batches x x') {w : Value B n}
    {w' : Value B' n'} (hw : L.Values w w') (op : Binary) :
    L.Outcome L.Values (op.apply lib d ⟨.bool, x⟩ w) (op.apply lib' d ⟨.bool, x'⟩ w') := by
  cases op with
  | and => exact hw.withSecond L.bool fun _ _ hy => h.maskAnd hy
  | or => exact hw.withSecond L.bool fun _ _ hy => h.maskOr hy
  | xor => exact hw.withSecond L.bool fun _ _ hy => h.maskXor hy
  | compare c => exact ((Values.mk L.bool h).compare hw c).map fun _ _ => .mk L.bool
  | _ => exact outcome_malformed

theorem Values.binary (hlib : L.Libraries lib lib') {v w : Value B n} {v' w' : Value B' n'}
    (hv : L.Values v v') (hw : L.Values w w') (op : Binary) :
    L.Outcome L.Values (op.apply lib d v w) (op.apply lib' d v' w') := by
  obtain ⟨hk, h⟩ := hv
  rename_i k _ _
  match k with
  | .float =>
    obtain ⟨rfl, htrusts⟩ := hlib hk
    exact binary_float htrusts hk h hw op
  | .number (.integer _) => exact binary_integer hk h hw op
  | .bool => exact binary_bool h hw op

/-! ## Operations on three values -/

/-- An operation on a second and a third operand of one kind. -/
theorem Values.withThird {v w : Value B n} {v' w' : Value B' n'} (hv : L.Values v v')
    (hw : L.Values w w') (hl : L.dialect.kinds l = true)
    {f : Batch B k n → Batch B k n → Batch B l n}
    {f' : Batch B' k n' → Batch B' k n' → Batch B' l n'}
    (hf : ∀ b b' c c', L.Batches b b' → L.Batches c c' → L.Batches (f b c) (f' b' c')) :
    L.Outcome L.Values (v.as k >>= fun b => w.as k >>= fun c => .ok ⟨l, f b c⟩)
      (v'.as k >>= fun b => w'.as k >>= fun c => .ok ⟨l, f' b c⟩) :=
  (hv.as k).bind fun b b' hb => hw.withSecond hl fun c c' hc => hf b b' c c' hb hc

/-- Choosing, lane by lane, between two values of one kind. -/
theorem Values.choice {m : Mask B n} {m' : Mask B' n'} {x : Batch B k n} {x' : Batch B' k n'}
    (hk : L.dialect.kinds k = true) (hm : L.Batches m m') (hx : L.Batches x x') {w : Value B n}
    {w' : Value B' n'} (hw : L.Values w w') :
    L.Outcome L.Values (w.as k >>= fun y => .ok ⟨k, x.assignMasked m y⟩)
      (w'.as k >>= fun y => .ok ⟨k, x'.assignMasked m' y⟩) :=
  hw.withSecond hk fun _ _ hy => hx.assignMasked hm hy

theorem Values.ternary (hlib : L.Libraries lib lib') {u v w : Value B n} {u' v' w' : Value B' n'}
    (hu : L.Values u u') (hv : L.Values v v') (hw : L.Values w w') (op : Ternary) :
    L.Outcome L.Values (op.apply lib u v w) (op.apply lib' u' v' w') := by
  obtain ⟨hk, h⟩ := hu
  rename_i k x x'
  cases op with
  | clamp =>
    match k with
    | .number _ => exact hv.withThird hw hk fun _ _ _ _ => h.clamp
    | .bool => exact outcome_malformed
  | mix =>
    match k with
    | .float => exact hv.withThird hw hk fun _ _ _ _ => h.mix
    | .number (.integer _) | .bool => exact outcome_malformed
  | smoothstep =>
    match k with
    | .float => exact hv.withThird hw hk fun _ _ _ _ => h.smoothstep
    | .number (.integer _) | .bool => exact outcome_malformed
  | faceforward =>
    match k with
    | .float => exact hv.withThird hw hk fun _ _ _ _ => h.faceforward
    | .number (.integer _) | .bool => exact outcome_malformed
  | refract =>
    match k with
    | .float =>
      obtain ⟨rfl, htrusts⟩ := hlib hk
      exact hv.withThird hw hk fun _ _ _ _ => h.refract htrusts
    | .number (.integer _) | .bool => exact outcome_malformed
  | select =>
    obtain ⟨hl, hy⟩ := hv
    match k with
    | .bool => exact hw.withSecond hl fun _ _ hz => hz.assignMasked h hy
    | .number _ => exact outcome_malformed
  | mixBool =>
    obtain ⟨-, hm⟩ := hw
    rename_i m _ _
    match m with
    | .bool => exact Values.choice hk hm h hv
    | .number _ => exact outcome_malformed
  | assignedWhere =>
    obtain ⟨-, hm⟩ := hv
    rename_i m _ _
    match m with
    | .bool => exact Values.choice hk hm h hw
    | .number _ => exact outcome_malformed

/-! ## Indexed reads -/

section Reads

variable {b : Batch B k n} {b' : Batch B' k n'} {index : Batch B (.number (.integer s)) n}
  {index' : Batch B' (.number (.integer s)) n'} {candidates : List (Batch B k n)}
  {candidates' : List (Batch B' k n')}

/-- By induction on the candidates, which are counted from any position on. -/
theorem Batches.gather_from {m : Mask B n} {m' : Mask B' n'} (hindex : L.Batches index index')
    (hc : List.Forall₂ L.Batches candidates candidates') (hb : L.Batches b b')
    (hm : L.Batches m m') (position : Nat) :
    L.Batches ((candidates.zipIdx position).foldl (Batch.gatherStep index) (b, m)).1
        ((candidates'.zipIdx position).foldl (Batch.gatherStep index') (b', m')).1 ∧
      L.Batches ((candidates.zipIdx position).foldl (Batch.gatherStep index) (b, m)).2
        ((candidates'.zipIdx position).foldl (Batch.gatherStep index') (b', m')).2 := by
  induction hc generalizing b b' m m' position with
  | nil => exact ⟨hb, hm⟩
  | cons h _ ih =>
    have hhit := hindex.cmpEq (d := .keep) (batches_splat (BitVec.ofNat 32 position))
    exact ih (hb.assignMasked hhit h) (hm.maskOr hhit) (position + 1)

/-- An indexed read writes linked lanes; if all lanes are compared, it also ends in the same fault
or in none. -/
theorem Batches.readIndexed (hb : L.Batches b b') (hindex : L.Batches index index')
    (hc : List.Forall₂ L.Batches candidates candidates') :
    L.Batches (b.readIndexed index candidates).1 (b'.readIndexed index' candidates').1 ∧
      (L.Total →
        (b.readIndexed index candidates).2 = (b'.readIndexed index' candidates').2) := by
  obtain ⟨hresult, hhits⟩ := hindex.gather_from hc hb (batches_splat (k := .bool) false) 0
  rw [Batch.readIndexed_eq, Batch.readIndexed_eq]
  refine ⟨hresult, fun hL => ?_⟩
  have hall : (b.gather index candidates).2.all = (b'.gather index' candidates').2.all :=
    hL.all_eq hhits
  have hcount : (~~~(b.gather index candidates).2).count
      = (~~~(b'.gather index' candidates').2).count :=
    hL.count_eq hhits.maskNot
  simp only [hall, hcount, hc.length_eq]

theorem Batches.readIndexedFrom (hb : L.Batches b b') (hindex : L.Batches index index')
    (hc : List.Forall₂ L.Batches candidates candidates') :
    L.Outcome L.Batches (b.readIndexedFrom index candidates)
      (b'.readIndexedFrom index' candidates') := by
  obtain ⟨hresult, hfault⟩ := hb.readIndexed hindex hc
  rw [Batch.readIndexedFrom, Batch.readIndexedFrom]
  generalize b.readIndexed index candidates = r at hresult hfault
  generalize b'.readIndexed index' candidates' = r' at hresult hfault
  match r, r' with
  | (_, none), (_, none) => exact .ok hresult
  | (_, none), (_, some _) => exact .left fun hL => nomatch hfault hL
  | (_, some _), (_, none) => exact .right fun hL => nomatch hfault hL
  | (_, some _), (_, some _) => exact .refused fun hL => Option.some.inj (hfault hL)

theorem Values.readIndexed {x index : Value B n} {x' index' : Value B' n'}
    {candidates : List (Value B n)} {candidates' : List (Value B' n')} (hx : L.Values x x')
    (hindex : L.Values index index') (hc : List.Forall₂ L.Values candidates candidates') :
    L.Outcome L.Values (Script.readIndexed x index candidates)
      (Script.readIndexed x' index' candidates') := by
  obtain ⟨hk, hx⟩ := hx
  rename_i k _ _
  refine (Outcome.mapM (fun _ _ h => h.as k) hc).bind fun cs cs' hcs => ?_
  obtain ⟨-, hindex⟩ := hindex
  rename_i l _ _
  match l with
  | .number (.integer _) => exact (hx.readIndexedFrom hindex hcs).lift.map fun _ _ => .mk hk
  | .float | .bool => exact outcome_malformed

end Reads

end Wavefront.Link
