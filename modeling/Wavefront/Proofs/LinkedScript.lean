import Wavefront.Script.Run
import Wavefront.Proofs.Evaluation
import Wavefront.Proofs.LinkedFlow

/-!
# Scripts keep links

What a script answers is the same on both sides of a link that compares all lanes, if no value is a
float and every step is allowed by the dialect (`Step.areIn`). Actions first, one lemma for each
group of them, then steps, by induction on the script. Main statement: `Flows.runAll`.

Floats are left out here because NaNs may be different ones, and the answers would show that.
-/

namespace Wavefront.Script

/-! ## What a dialect allows -/

/-- The move uses only what the dialect allows. -/
def MaskMove.isIn (d : Dialect) : MaskMove → Bool
  | push cond | retire cond => cond.isIn d
  | fresh | flip | pop | look | restore => true

/-- The write uses only what the dialect allows. Whole registers are not comparable. -/
def Update.isIn (d : Dialect) : Update → Bool
  | assign e | assignActive e | combine _ e => e.isIn d
  | assignMasked mask e => mask.isIn d && e.isIn d
  | setLane .. => true
  | setPart .. => false
  | transform op => op.isIn d

/-- The query asks only for what the dialect allows, and for nothing about registers. -/
def Query.isIn (d : Dialect) : Query → Bool
  | batch e => e.isIn d
  | literal l => d.kinds l.kind
  | probe p => p.isIn d
  | bitmasks _ | registerReductions _ | part .. | store .. | text _ | registersText _ => false

/-- The action uses only what the dialect allows. Memory and guards are left out. -/
def Action.isIn (d : Dialect) : Action → Bool
  | query _ q => q.isIn d
  | update _ u => u.isIn d
  | readIndexed _ index candidates => index.isIn d && Expr.areIn d candidates
  | mask move => move.isIn d
  | saveMask => true
  | store .. | load .. | poke .. | maskText | guard | guardIf _ | dropGuard => false

mutual

/-- The step uses only what the dialect allows. -/
def Step.isIn (d : Dialect) : Step → Bool
  | action a => a.isIn d
  | branch cond first second => cond.isIn d && Step.areIn d first && Step.areIn d second
  | loop cond body => cond.isIn d && Step.areIn d body

/-- All steps use only what the dialect allows. -/
def Step.areIn (d : Dialect) : List Step → Bool
  | [] => true
  | step :: steps => step.isIn d && Step.areIn d steps

end

/-- Removing one name leaves the others to be found. -/
theorem lookup_filter_ne {α : Type} {name other : String} (h : (other == name) = false)
    (vars : List (String × α)) :
    (vars.filter fun entry => entry.1 != name).lookup other = vars.lookup other := by
  induction vars with
  | nil => rfl
  | cons entry vars ih =>
    by_cases hentry : entry.1 = name
    · rw [List.filter_cons_of_neg (by simp [hentry]), ih, List.lookup_cons, hentry, h]
    · rw [List.filter_cons_of_pos (by simp [hentry]), List.lookup_cons, List.lookup_cons, ih]

/-- A written variable is found, and the others are found as before. -/
theorem Store.lookup_put {B : Backend} {n : Nat} (s : Store B n) (name : String) (v : Value B n)
    (other : String) :
    (s.put name v).vars.lookup other
      = if other == name then some v else s.vars.lookup other := by
  rw [Store.put, List.lookup_cons]
  cases h : other == name with
  | true => rfl
  | false => exact lookup_filter_ne h s.vars

end Wavefront.Script

namespace Wavefront.Link

open Script

variable {B B' : Backend} {n n' : Nat} {L : Link B n B' n'}

/-! ## Answers of evaluations -/

section Answers

theorem ne_float {k : Kind} (hfloat : L.dialect.kinds .float = false)
    (hk : L.dialect.kinds k = true) : k ≠ .float := by
  rintro rfl
  exact Bool.false_ne_true (hfloat.symm.trans hk)

/-- Every lane of both values is compared, and there are no NaNs. -/
theorem Values.lanes_eq {v : Value B n} {v' : Value B' n'} (h : L.Values v v') (hL : L.Total)
    (hfloat : L.dialect.kinds .float = false) : v.lanes = v'.lanes := by
  obtain ⟨hk, h⟩ := h
  exact congrArg (Lanes.mk _) (hL.toList_eq (ne_float hfloat hk) h)

theorem LaneValues.eq {v v' : LaneValue} (h : L.LaneValues v v')
    (hfloat : L.dialect.kinds .float = false) : v = v' := by
  obtain ⟨hk, h⟩ := h
  exact congrArg (LaneValue.mk _) (h.alike.eq_of_ne_float (ne_float hfloat hk))

variable {s : Scope B n} {s' : Scope B' n'}

theorem Scopes.evalMask (h : L.Scopes s s') (e : Expr) (he : e.isIn L.dialect = true) :
    L.Outcome L.Batches (e.evalMask s) (e.evalMask s') :=
  (h.eval e he).bind fun _ _ hv => hv.as .bool

/-- A query has the same answer, and keeps linked values. -/
theorem Scopes.query (h : L.Scopes s s') (hL : L.Total) (hfloat : L.dialect.kinds .float = false)
    (q : Query) (hq : q.isIn L.dialect = true) :
    L.Outcome (fun a a' => a.1 = a'.1 ∧ Option.Rel L.Values a.2 a'.2) (q.eval s) (q.eval s') := by
  cases q with
  | batch e =>
    exact (h.eval e hq).map fun _ _ hv =>
      ⟨congrArg Observation.lanes (hv.lanes_eq hL hfloat), .some hv⟩
  | literal l => exact .ok ⟨rfl, .some (values_literal l hq)⟩
  | probe p =>
    exact (h.probe hL p hq).map fun _ _ hv =>
      ⟨congrArg Observation.lane (hv.eq hfloat), .some hv.spread⟩
  | bitmasks | registerReductions | part | store | text | registersText => exact nomatch hq

end Answers

/-! ## Updates -/

section Updates

variable {s : Scope B n} {s' : Scope B' n'} {x : Value B n} {x' : Value B' n'}

/-- A lane is written on both sides or on none. -/
theorem Values.setLane (h : L.Values x x') (i : Nat) (value : Literal) :
    L.Outcome L.Values
      (do
        let value ← value.lane x.kind
        return ⟨x.kind, ← x.batch.setLane i value⟩)
      (do
        let value ← value.lane x'.kind
        return ⟨x'.kind, ← x'.batch.setLane i value⟩) := by
  obtain ⟨hk, h⟩ := h
  rename_i k b b'
  refine Outcome.of_eq.bind fun w _ hw => ?_
  subst hw
  refine Outcome.map (Outcome.lift ?_) fun _ _ => .mk hk
  refine .of_refusedWhen (Batch.setLane_refused b i w) (Batch.setLane_refused b' i w)
    (fun hL => ?_) (fun hL => ?_) fun j j' hj => ?_
  · rw [hL.1]
  · rw [hL.1]
  · rw [Batch.lane_ofFn, Batch.lane_ofFn, L.aligned hj]
    split
    · exact same_of_eq rfl
    · exact h j j' hj

theorem Scopes.update (h : L.Scopes s s') {w : WriteMask B n} {w' : WriteMask B' n'}
    (hw : L.WriteMasks w w') (hx : L.Values x x') (u : Update) (hu : u.isIn L.dialect = true) :
    L.Outcome L.Values (u.apply s w x) (u.apply s' w' x') := by
  cases u with
  | assign e =>
    obtain ⟨hk, -⟩ := hx
    exact (h.eval e hu).bind fun _ _ hv => (hv.as _).map fun _ _ => .mk hk
  | assignMasked mask e =>
    have hu := Bool.and_eq_true_iff.1 hu
    obtain ⟨hk, hx⟩ := hx
    exact (h.evalMask mask hu.1).bind fun _ _ hm => (h.eval e hu.2).bind fun _ _ hv =>
      (hv.as _).map fun _ _ hb => .mk hk (hx.assignMasked hm hb)
  | assignActive e =>
    obtain ⟨hk, hx⟩ := hx
    exact (h.eval e hu).bind fun _ _ hv =>
      (hv.as _).map fun _ _ hb => .mk hk (hx.assignMasked hw.active hb)
  | setLane i value => exact hx.setLane i value
  | setPart => exact nomatch hu
  | combine op e =>
    rw [Update.apply, Update.apply, h.mode]
    exact (h.eval e hu).bind fun _ _ hv => hx.binary h.library hv op
  | transform op => exact hx.unary h.library op hu

/-- An indexed read writes linked lanes and ends in the same fault or in none. -/
theorem Scopes.readInto (h : L.Scopes s s') (hL : L.Total) (hx : L.Values x x') (index : Expr)
    (candidates : List Expr) (hindex : index.isIn L.dialect = true)
    (hc : Expr.areIn L.dialect candidates = true) :
    L.Outcome (fun r r' => L.Values r.1 r'.1 ∧ r.2 = r'.2) (Script.readInto s x index candidates)
      (Script.readInto s' x' index candidates) := by
  obtain ⟨hk, hx⟩ := hx
  refine (h.eval index hindex).bind fun v v' hv => (h.evalAll candidates hc).bind fun vs vs' hvs =>
    (Outcome.mapM (fun _ _ h => h.as _) hvs).bind fun cs cs' hcs => ?_
  obtain ⟨-, hv⟩ := hv
  rename_i l _ _
  match l with
  | .number (.integer _) =>
    obtain ⟨hresult, hfault⟩ := hx.readIndexed hv hcs
    exact .ok ⟨.mk hk hresult, hfault hL⟩
  | .float | .bool => exact outcome_malformed

end Updates

/-! ## Stores and flows -/

/-- Linked variables and saved masks, the same guards, and libraries as the link wants them. Memory
is not compared, for no step here touches it. -/
structure Stores (L : Link B n B' n') (s : Store B n) (s' : Store B' n') : Prop where
  vars : ∀ name, Option.Rel L.Values (s.vars.lookup name) (s'.vars.lookup name)
  saved : List.Forall₂ L.WriteMasks s.saved s'.saved
  control : s.control = s'.control
  library : L.Libraries s.library s'.library

theorem Stores.scope {s : Store B n} {s' : Store B' n'} (h : L.Stores s s') :
    L.Scopes s.scope s'.scope :=
  ⟨congrArg FloatControl.denormals h.control, h.library, h.vars⟩

theorem Stores.put {s : Store B n} {s' : Store B' n'} (h : L.Stores s s') (name : String)
    {v : Value B n} {v' : Value B' n'} (hv : L.Values v v') :
    L.Stores (s.put name v) (s'.put name v') := by
  refine ⟨fun other => ?_, h.saved, h.control, h.library⟩
  rw [Store.lookup_put, Store.lookup_put]
  split
  · exact .some hv
  · exact h.vars other

/-- Linked stores, with the same answers noted beside them. -/
def Noted {α : Type} (L : Link B n B' n') (s : Store B n × α) (s' : Store B' n' × α) : Prop :=
  L.Stores s.1 s'.1 ∧ s.2 = s'.2

/-- Linked flows with the same answer. -/
def Answered {α : Type} (L : Link B n B' n') (r : Flow B n (Store B n) × α)
    (r' : Flow B' n' (Store B' n') × α) : Prop :=
  L.Flows L.Stores r.1 r'.1 ∧ r.2 = r'.2

section Actions

variable {f : Flow B n (Store B n)} {f' : Flow B' n' (Store B' n')}

theorem Flows.withMask (h : L.Flows L.Stores f f') {w : WriteMask B n} {w' : WriteMask B' n'}
    (hw : L.WriteMasks w w') : L.Flows L.Stores { f with mask := w } { f' with mask := w' } :=
  ⟨hw, h.state, h.log⟩

theorem Flows.withStore (h : L.Flows L.Stores f f') {s : Store B n} {s' : Store B' n'}
    (hs : L.Stores s s') : L.Flows L.Stores { f with state := s } { f' with state := s' } :=
  ⟨h.mask, hs, h.log⟩

theorem Flows.notes (h : L.Flows L.Stores f f') (events : List Event) :
    L.Flows L.Stores (events.foldl Flow.note f) (events.foldl Flow.note f') := by
  induction events generalizing f f' with
  | nil => exact h
  | cons e _ ih => exact ih (h.note e)

theorem Flows.fail (h : L.Flows L.Stores f f') (failure : Failure) (after : Option Lanes) :
    L.Answered (Script.fail f failure after) (Script.fail f' failure after) :=
  ⟨h.notes failure.events, rfl⟩

theorem Flows.move (h : L.Flows L.Stores f f') (move : MaskMove)
    (hmove : move.isIn L.dialect = true) :
    L.Outcome (L.Flows L.Stores) (move.apply f.state.scope f.state.saved f)
      (move.apply f'.state.scope f'.state.saved f') := by
  cases move with
  | fresh => exact .ok (h.withMask writeMasks_fresh)
  | push cond => exact (h.state.scope.evalMask cond hmove).map fun _ _ => h.push
  | flip => exact .ok h.flip
  | pop => exact .ok h.pop
  | retire cond =>
    exact (h.state.scope.evalMask cond hmove).map fun _ _ hc => h.withMask (h.mask.retire hc)
  | look => exact .ok h
  | restore =>
    have hsaved := h.state.saved
    generalize f.state.saved = saved at hsaved
    generalize f'.state.saved = saved' at hsaved
    cases hsaved with
    | nil => exact outcome_malformed
    | cons hw hrest => exact .ok ⟨hw, { h.state with saved := hrest }, h.log⟩

/-- What a mask shows. -/
theorem Flows.maskState_eq (h : L.Flows L.Stores f f') (hL : L.Total) :
    MaskState.of f.mask = MaskState.of f'.mask := by
  rw [MaskState.of, MaskState.of, hL.toList_eq (by decide) h.mask.active, h.mask.depth_eq,
    h.mask.anyActive_eq hL]

variable (hL : L.Total) (hfloat : L.dialect.kinds .float = false)
include hL hfloat

theorem Flows.query (h : L.Flows L.Stores f f') (keep : Option String) (q : Query)
    (hq : q.isIn L.dialect = true) :
    L.Answered ((Action.query keep q).run f) ((Action.query keep q).run f') := by
  have hanswer := (h.state.scope.query hL hfloat q hq).agree hL
  rw [Action.run, Action.run]
  generalize q.eval f.state.scope = r at hanswer
  generalize q.eval f'.state.scope = r' at hanswer
  cases hanswer with
  | error failure => exact h.fail failure none
  | ok hr =>
    rename_i a a'
    obtain ⟨observation, value⟩ := a
    obtain ⟨_, value'⟩ := a'
    obtain ⟨rfl, hvalue⟩ := hr
    cases hvalue with
    | none => cases keep <;> exact ⟨h, rfl⟩
    | some hv =>
      cases keep with
      | none => exact ⟨h, rfl⟩
      | some name => exact ⟨h.withStore (h.state.put name hv), rfl⟩

theorem Flows.update (h : L.Flows L.Stores f f') (name : String) (u : Update)
    (hu : u.isIn L.dialect = true) :
    L.Answered ((Action.update name u).run f) ((Action.update name u).run f') := by
  have hget := (h.state.scope.get name).agree hL
  rw [Action.run, Action.run]
  generalize f.state.scope.get name = x at hget
  generalize f'.state.scope.get name = x' at hget
  cases hget with
  | error failure => exact h.fail failure none
  | ok hx =>
    rename_i x x'
    have hupdate := (h.state.scope.update h.mask hx u hu).agree hL
    dsimp only
    rw [hx.lanes_eq hL hfloat]
    generalize u.apply f.state.scope f.mask x = r at hupdate
    generalize u.apply f'.state.scope f'.mask x' = r' at hupdate
    cases hupdate with
    | error failure => exact h.fail failure _
    | ok hv =>
      exact ⟨h.withStore (h.state.put name hv), congrArg Reply.written (hv.lanes_eq hL hfloat)⟩

/-- Also an indexed read that fails has written the lanes that did match. -/
theorem Flows.readIndexed (h : L.Flows L.Stores f f') (name : String) (index : Expr)
    (candidates : List Expr) (hindex : index.isIn L.dialect = true)
    (hc : Expr.areIn L.dialect candidates = true) :
    L.Answered ((Action.readIndexed name index candidates).run f)
      ((Action.readIndexed name index candidates).run f') := by
  have hget := (h.state.scope.get name).agree hL
  rw [Action.run, Action.run]
  generalize f.state.scope.get name = x at hget
  generalize f'.state.scope.get name = x' at hget
  cases hget with
  | error failure => exact h.fail failure none
  | ok hx =>
    rename_i x x'
    have hread :=
      (h.state.scope.readInto hL hx index candidates hindex hc).agree hL
    dsimp only
    rw [hx.lanes_eq hL hfloat]
    generalize Script.readInto f.state.scope x index candidates = r at hread
    generalize Script.readInto f'.state.scope x' index candidates = r' at hread
    cases hread with
    | error failure => exact h.fail failure _
    | ok hr =>
      rename_i r r'
      obtain ⟨v, fault⟩ := r
      obtain ⟨v', _⟩ := r'
      obtain ⟨hv, rfl⟩ := hr
      have hstore := h.withStore (h.state.put name hv)
      dsimp only
      rw [hv.lanes_eq hL hfloat]
      cases fault with
      | none => exact ⟨hstore, rfl⟩
      | some fault => exact hstore.fail _ _

/-- **Actions keep links**, and have the same answer. -/
theorem Flows.action (h : L.Flows L.Stores f f') (a : Action) (ha : a.isIn L.dialect = true) :
    L.Answered (a.run f) (a.run f') := by
  cases a with
  | query keep q => exact h.query hL hfloat keep q ha
  | update name u => exact h.update hL hfloat name u ha
  | readIndexed name index candidates =>
    have ha := Bool.and_eq_true_iff.1 ha
    exact h.readIndexed hL hfloat name index candidates ha.1 ha.2
  | mask move =>
    have hmove := (h.move move ha).agree hL
    rw [Action.run, Action.run]
    generalize move.apply f.state.scope f.state.saved f = r at hmove
    generalize move.apply f'.state.scope f'.state.saved f' = r' at hmove
    cases hmove with
    | error failure => exact h.fail failure none
    | ok hg => exact ⟨hg, congrArg Reply.maskState (hg.maskState_eq hL)⟩
  | saveMask =>
    have hsaved := List.Forall₂.cons h.mask h.state.saved
    exact ⟨h.withStore { h.state with saved := hsaved },
      congrArg Reply.saved hsaved.length_eq⟩
  | store | load | poke | maskText | guard | guardIf | dropGuard => exact nomatch ha

end Actions

/-! ## Steps -/

section Steps

variable {f : Flow B n (Store B n)} {f' : Flow B' n' (Store B' n')}

theorem Flows.collect (h : L.Flows L.Stores f f') {answer answer' : List Event → Answer}
    (hanswer : answer = answer') :
    L.Answered (Script.collect f answer) (Script.collect f' answer') :=
  ⟨⟨h.mask, h.state, rfl⟩, by rw [Script.collect, Script.collect, hanswer, h.log]⟩

theorem Flows.failedStep (h : L.Flows L.Stores f f') (failure : Failure) :
    L.Answered (Script.failedStep f failure) (Script.failedStep f' failure) := by
  obtain ⟨hf, hreply⟩ := h.fail failure none
  exact hf.collect (congrArg Answer.action hreply)

/-- Code that answers, on linked flows. -/
abbrev Answers (L : Link B n B' n') {α : Type}
    (code : Flow B n (Store B n) → Option (Flow B n (Store B n) × α))
    (code' : Flow B' n' (Store B' n') → Option (Flow B' n' (Store B' n') × α)) : Prop :=
  ∀ f f', L.Flows L.Stores f f' → Option.Rel L.Answered (code f) (code' f')

/-- The arms that are run answer the same, and the same arms are. -/
theorem Flows.runBranch (hL : L.Total) {cond : Mask B n} {cond' : Mask B' n'}
    {first second : Flow B n (Store B n) → Option (Flow B n (Store B n) × List Answer)}
    {first' second' : Flow B' n' (Store B' n') → Option (Flow B' n' (Store B' n') × List Answer)}
    (h : L.Flows L.Stores f f') (hc : L.Batches cond cond') (h₁ : L.Answers first first')
    (h₂ : L.Answers second second') :
    Option.Rel L.Answered (Script.runBranch cond first second f)
      (Script.runBranch cond' first' second' f') := by
  refine rel_bind (R := L.Flows L.Noted) (Keeps.branch ?first ?second hL hc _ _
    ⟨h.mask, ⟨h.state, rfl⟩, h.log⟩) fun g g' hg => ?last
  case first =>
    intro g g' hg
    refine rel_bind (h₁ _ _ ⟨hg.mask, hg.state.1, hg.log⟩) ?_
    rintro ⟨k, answers⟩ ⟨k', _⟩ ⟨hk, rfl⟩
    exact .some ⟨hk.mask, ⟨hk.state, congrArg (fun a => (some answers, a.2)) hg.state.2⟩, hk.log⟩
  case second =>
    intro g g' hg
    refine rel_bind (h₂ _ _ ⟨hg.mask, hg.state.1, hg.log⟩) ?_
    rintro ⟨k, answers⟩ ⟨k', _⟩ ⟨hk, rfl⟩
    exact .some ⟨hk.mask, ⟨hk.state, congrArg (fun a => (a.1, some answers)) hg.state.2⟩, hk.log⟩
  case last =>
    obtain ⟨hstore, hanswers⟩ := hg.state
    have hflow : L.Flows L.Stores (withState g g.state.1) (withState g' g'.state.1) :=
      ⟨hg.mask, hstore, hg.log⟩
    refine .some (hflow.collect ?_)
    show Answer.branch (MaskState.of (withState g g.state.1).mask) g.state.2.1 g.state.2.2
      = Answer.branch (MaskState.of (withState g' g'.state.1).mask) g'.state.2.1 g'.state.2.2
    rw [hanswers, hflow.maskState_eq hL]

theorem Stores.loopCondition {s : Store B n} {s' : Store B' n'} (h : L.Stores s s') (hL : L.Total)
    (cond : Expr) (hc : cond.isIn L.dialect = true) :
    L.Batches (Script.loopCondition cond s) (Script.loopCondition cond s') := by
  have hmask := (h.scope.evalMask cond hc).agree hL
  rw [Script.loopCondition, Script.loopCondition]
  generalize cond.evalMask s.scope = m at hmask
  generalize cond.evalMask s'.scope = m' at hmask
  cases hmask with
  | error => exact batches_bool false
  | ok hm => exact hm

/-- A loop takes the same turns, which answer the same. -/
theorem Flows.runLoop (hL : L.Total) {fuel : Nat} {cond : Expr}
    {body : Flow B n (Store B n) → Option (Flow B n (Store B n) × List Answer)}
    {body' : Flow B' n' (Store B' n') → Option (Flow B' n' (Store B' n') × List Answer)}
    (h : L.Flows L.Stores f f') (hc : cond.isIn L.dialect = true) (hbody : L.Answers body body') :
    Option.Rel L.Answered (Script.runLoop fuel cond body f)
      (Script.runLoop fuel cond body' f') := by
  refine rel_bind (R := L.Flows L.Noted) (Keeps.repeatWhile ?body hL
    (fun s s' hs => hs.1.loopCondition hL cond hc) fuel _ _ ⟨h.mask, ⟨h.state, rfl⟩, h.log⟩)
    fun g g' hg => ?last
  case body =>
    intro g g' hg
    refine rel_bind (hbody _ _ ⟨hg.mask, hg.state.1, hg.log⟩) ?_
    rintro ⟨k, answers⟩ ⟨k', _⟩ ⟨hk, rfl⟩
    exact .some ⟨hk.mask, ⟨hk.state, congrArg (· ++ [answers]) hg.state.2⟩, hk.log⟩
  case last =>
    obtain ⟨hstore, hturns⟩ := hg.state
    have hflow : L.Flows L.Stores (withState g g.state.1) (withState g' g'.state.1) :=
      ⟨hg.mask, hstore, hg.log⟩
    have hmask := (hstore.scope.evalMask cond hc).agree hL
    dsimp only
    generalize cond.evalMask g.state.1.scope = m at hmask
    generalize cond.evalMask g'.state.1.scope = m' at hmask
    cases hmask with
    | error failure => exact .some (h.failedStep failure)
    | ok =>
      refine .some (hflow.collect ?_)
      show Answer.loop (MaskState.of (withState g g.state.1).mask) g.state.2
        = Answer.loop (MaskState.of (withState g' g'.state.1).mask) g'.state.2
      rw [hturns, hflow.maskState_eq hL]

mutual

theorem Flows.step (hL : L.Total) (hfloat : L.dialect.kinds .float = false) (fuel : Nat) :
    (step : Step) → step.isIn L.dialect = true →
    L.Answers (step.run fuel) (step.run fuel)
  | .action a, hstep => fun f f' h => by
    obtain ⟨hf, hreply⟩ := h.action hL hfloat a hstep
    rw [Step.run, Step.run]
    exact .some (hf.collect (congrArg Answer.action hreply))
  | .branch cond first second, hstep => fun f f' h => by
    have hstep := Bool.and_eq_true_iff.1 hstep
    have hcond := Bool.and_eq_true_iff.1 hstep.1
    have hmask := (h.state.scope.evalMask cond hcond.1).agree hL
    rw [Step.run, Step.run]
    generalize cond.evalMask f.state.scope = m at hmask
    generalize cond.evalMask f'.state.scope = m' at hmask
    cases hmask with
    | error failure => exact .some (h.failedStep failure)
    | ok hm =>
      exact h.runBranch hL hm (runAll hL hfloat fuel first hcond.2)
        (runAll hL hfloat fuel second hstep.2)
  | .loop cond body, hstep => fun f f' h => by
    have hstep := Bool.and_eq_true_iff.1 hstep
    rw [Step.run, Step.run]
    exact h.runLoop hL hstep.1 (runAll hL hfloat fuel body hstep.2)

/-- **Scripts keep links**, and have the same answers. -/
theorem Flows.runAll (hL : L.Total) (hfloat : L.dialect.kinds .float = false) (fuel : Nat) :
    (steps : List Step) → Step.areIn L.dialect steps = true →
    L.Answers (Step.runAll fuel steps) (Step.runAll fuel steps)
  | [], _ => fun f f' h => .some ⟨h, rfl⟩
  | first :: rest, hsteps => fun f f' h => by
    have hsteps := Bool.and_eq_true_iff.1 hsteps
    rw [Step.runAll, Step.runAll]
    refine rel_bind (step hL hfloat fuel first hsteps.1 f f' h) ?_
    rintro ⟨g, answer⟩ ⟨g', _⟩ ⟨hg, rfl⟩
    refine rel_bind (runAll hL hfloat fuel rest hsteps.2 g g' hg) ?_
    rintro ⟨k, answers⟩ ⟨k', _⟩ ⟨hk, rfl⟩
    exact .some ⟨hk, rfl⟩

end

end Steps

end Wavefront.Link
