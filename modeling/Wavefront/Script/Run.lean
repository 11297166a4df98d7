import Wavefront.Script.Step
import Wavefront.Single.Double

/-!
# Running scripts

`Script.run` runs the steps of a script one after the other and collects their answers. Branches and
loops are those of `Flow`, with the arms and the body run as scripts on the same store.

The log of a step holds what was logged since the last step that ended. So an event that a branch
itself logs on its way from one arm to the other is found with the first step of the second arm.

A failure ends a program that does not catch it. A script catches failures step by step, as a
program with a handler around each of its steps: the step that failed is answered with the failure,
and the script goes on with the next one. That holds for the steps in arms and bodies, too.
-/

namespace Wavefront.Script

variable {B : Backend} {n : Nat}

/-! ## Actions -/

/-- The new value of a variable under an update. -/
def Update.apply (scope : Scope B n) (w : WriteMask B n) (x : Value B n) :
    Update → Except Failure (Value B n)
  | assign e => do return ⟨x.kind, ← (← e.eval scope).as x.kind⟩
  | assignMasked mask e => do
    let mask ← mask.evalMask scope
    let source ← (← e.eval scope).as x.kind
    return ⟨x.kind, x.batch.assignMasked mask source⟩
  | assignActive e => do
    let source ← (← e.eval scope).as x.kind
    return ⟨x.kind, w.assign x.batch source⟩
  | setLane i value => do
    let value ← value.lane x.kind
    return ⟨x.kind, ← x.batch.setLane i value⟩
  | setPart register values => do
    let values ← values.mapM (Literal.lane x.kind)
    let part ← (Batch.ofSlice values : Except Fault (Batch B x.kind 1))
    return ⟨x.kind, ← x.batch.setPart register part⟩
  | combine op e => do op.apply scope.library scope.mode x (← e.eval scope)
  | transform op => op.apply scope.library x

/-- An indexed read into a variable: its value afterwards, and the fault it ended in. -/
def readInto (scope : Scope B n) (x : Value B n) (index : Expr) (candidates : List Expr) :
    Except Failure (Value B n × Option Fault) := do
  let index ← index.eval scope
  let candidates ← Expr.evalAll scope candidates
  let candidates ← candidates.mapM (Value.as x.kind)
  match index with
  | ⟨.number (.integer _), index⟩ =>
    let (result, fault) := x.batch.readIndexed index candidates
    return (⟨x.kind, result⟩, fault)
  | _ => throw .malformed

/-- The mask after a move. -/
def MaskMove.apply (scope : Scope B n) (saved : List (WriteMask B n))
    (f : Flow B n (Store B n)) : MaskMove → Except Failure (Flow B n (Store B n))
  | fresh => .ok { f with mask := WriteMask.fresh }
  | push cond => do return f.push (← cond.evalMask scope)
  | flip => .ok f.flip
  | pop => .ok f.pop
  | retire cond => do
    let cond ← cond.evalMask scope
    return { f with mask := f.mask.retire cond }
  | look => .ok f
  | restore =>
    match saved with
    | [] => .error .malformed
    | mask :: saved => .ok { f with mask, state := { f.state with saved } }

/-- Logs what a failure leaves there. -/
def fail (f : Flow B n (Store B n)) (failure : Failure) (after : Option Lanes) :
    Flow B n (Store B n) × Reply :=
  (failure.events.foldl Flow.note f, .failed failure after)

/-- Puts a memory in the place of the one of its kind. -/
def withMemory {k : Kind} (f : Flow B n (Store B n)) (memory : Memory k) : Flow B n (Store B n) :=
  { f with state := { f.state with memories := f.state.memories.set k memory } }

/-- Does an action and replies. -/
def Action.run (f : Flow B n (Store B n)) : Action → Flow B n (Store B n) × Reply
  | query keep q =>
    match q.eval f.state.scope with
    | .error failure => fail f failure none
    | .ok (observation, value) =>
      match keep, value with
      | some name, some value =>
        ({ f with state := f.state.put name value }, .observed observation)
      | _, _ => (f, .observed observation)
  | update name u =>
    match f.state.scope.get name with
    | .error failure => fail f failure none
    | .ok x =>
      match u.apply f.state.scope f.mask x with
      | .error failure => fail f failure (some x.lanes)
      | .ok value => ({ f with state := f.state.put name value }, .written value.lanes)
  | readIndexed name index candidates =>
    match f.state.scope.get name with
    | .error failure => fail f failure none
    | .ok x =>
      match readInto f.state.scope x index candidates with
      | .error failure => fail f failure (some x.lanes)
      | .ok (value, fault) =>
        let f := { f with state := f.state.put name value }
        match fault with
        | none => (f, .written value.lanes)
        | some fault => fail f (.fault fault) (some value.lanes)
  | store e offset length =>
    match e.eval f.state.scope with
    | .error failure => fail f failure none
    | .ok ⟨k, batch⟩ =>
      if Memories.cellCount < offset + length then fail f .malformed none
      else
        let (outcome, memory) := (batch.store offset length).run (f.state.memories.get k)
        let f := withMemory f memory
        match outcome with
        | .error fault => fail f (.fault fault) none
        | .ok (.error e) => (f, .rejected e)
        | .ok (.ok ()) => (f, .memory ⟨k, memory.cells⟩)
  | load keep k offset length =>
    if Memories.cellCount < offset + length then fail f .malformed none
    else
      let (outcome, memory) := (Batch.load offset length : Access k (Except _ (Batch B k n))).run
        (f.state.memories.get k)
      let f := withMemory f memory
      match outcome with
      | .error fault => fail f (.fault fault) none
      | .ok (.error e) => (f, .rejected e)
      | .ok (.ok batch) =>
        ({ f with state := f.state.put keep ⟨k, batch⟩ }, .written ⟨k, batch.toList⟩)
  | poke k offset values =>
    if Memories.cellCount < offset + values.length then fail f .malformed none
    else
      let memory := (f.state.memories.get k).write offset values
      (withMemory f memory, .memory ⟨k, memory.cells⟩)
  | mask move =>
    match move.apply f.state.scope f.state.saved f with
    | .error failure => fail f failure none
    | .ok f => (f, .maskState (MaskState.of f.mask))
  | saveMask =>
    let saved := f.mask :: f.state.saved
    ({ f with state := { f.state with saved } }, .saved saved.length)
  | maskText => (f, .observed (.text f.mask.text))
  | guard =>
    let control := f.state.control.enter
    ({ f with state := { f.state with control } }, .guards control.guards.length)
  | guardIf flush =>
    let control := f.state.control.enterIf flush
    ({ f with state := { f.state with control } }, .guardsAndLast control.guards.length flush)
  | dropGuard =>
    let control := f.state.control.leave
    ({ f with state := { f.state with control } }, .guards control.guards.length)

/-! ## Steps -/

/-- Empties the log into an answer. -/
def collect (f : Flow B n (Store B n)) (answer : List Event → Answer) :
    Flow B n (Store B n) × Answer :=
  ({ f with log := [] }, answer f.log)

/-- The same flow with another state. -/
def withState {σ τ : Type} (f : Flow B n σ) (state : τ) : Flow B n τ := ⟨f.mask, state, f.log⟩

/-- A step that failed, and was caught: nothing but the log is different. What follows the step, in
a script or in an arm, runs after it. -/
def failedStep (f : Flow B n (Store B n)) (failure : Failure) : Flow B n (Store B n) × Answer :=
  let (f, reply) := fail f failure none
  collect f (.action reply)

/-- A branch with its arms given as code that answers. The store is paired with the answers of the
arms so far. -/
def runBranch (cond : Mask B n)
    (first second : Flow B n (Store B n) → Option (Flow B n (Store B n) × List Answer))
    (f : Flow B n (Store B n)) : Option (Flow B n (Store B n) × Answer) := do
  let start : Store B n × Option (List Answer) × Option (List Answer) := (f.state, none, none)
  let g ← (withState f start).branch cond
    (fun g => do
      let (h, answers) ← first (withState g g.state.1)
      return withState h (h.state, some answers, g.state.2.2))
    (fun g => do
      let (h, answers) ← second (withState g g.state.1)
      return withState h (h.state, g.state.2.1, some answers))
  let (store, first, second) := g.state
  return collect (withState g store) (.branch (MaskState.of g.mask) first second)

/-- The mask of a loop's condition; none of the lanes if it fails, which ends the loop, so that
`runLoop` comes to take the step back. -/
def loopCondition (cond : Expr) (store : Store B n) : Mask B n :=
  match cond.evalMask store.scope with
  | .ok mask => mask
  | .error _ => Batch.splat false

/-- A loop with its body given as code that answers. The condition belongs to the loop and not to a
step in it, so its failure is caught around the whole loop: also at a later turn it takes back what
the turns before have done, and their answers are dropped. -/
def runLoop (fuel : Nat) (cond : Expr)
    (body : Flow B n (Store B n) → Option (Flow B n (Store B n) × List Answer))
    (f : Flow B n (Store B n)) : Option (Flow B n (Store B n) × Answer) := do
  let g ← (withState f (f.state, ([] : List (List Answer)))).repeatWhile fuel
    (fun state => loopCondition cond state.1)
    (fun g => do
      let (h, answers) ← body (withState g g.state.1)
      return withState h (h.state, g.state.2 ++ [answers]))
  let (store, turns) := g.state
  -- a condition that fails has left no lane active: evaluated once more, it tells why
  match cond.evalMask store.scope with
  | .error failure => return failedStep f failure
  | .ok _ => return collect (withState g store) (.loop (MaskState.of g.mask) turns)

mutual

/-- Runs a step. The fuel bounds the turns of every loop; `none` is a loop that wants more. -/
def Step.run (fuel : Nat) :
    Step → Flow B n (Store B n) → Option (Flow B n (Store B n) × Answer)
  | action a, f =>
    let (f, reply) := a.run f
    some (collect f (.action reply))
  | branch cond first second, f =>
    match cond.evalMask f.state.scope with
    | .error failure => some (failedStep f failure)
    | .ok mask => runBranch mask (runAll fuel first) (runAll fuel second) f
  | loop cond body, f => runLoop fuel cond (runAll fuel body) f

/-- Runs steps one after the other. -/
def Step.runAll (fuel : Nat) :
    List Step → Flow B n (Store B n) → Option (Flow B n (Store B n) × List Answer)
  | [], f => some (f, [])
  | step :: steps, f => do
    let (f, answer) ← step.run fuel f
    let (f, answers) ← runAll fuel steps f
    return (f, answer :: answers)

end

/-- A script at its start: all lanes active, nothing stored, nothing logged. -/
def start (lib : MathLibrary) : Flow B n (Store B n) := ⟨WriteMask.fresh, Store.fresh lib, []⟩

/-- The answers of a script on a backend with so many registers. -/
def run (B : Backend) (n fuel : Nat) (steps : List Step) : Option (List Answer) :=
  (Step.runAll fuel steps (start MathLibrary.double : Flow B n (Store B n))).map Prod.snd

end Wavefront.Script
