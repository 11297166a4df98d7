import Wavefront.WriteMask
import Wavefront.Event

/-!
# Structured control flow under a write mask

A `Flow` is what structured code runs on: the write mask, the state that the code works on, and the
log. `branch` runs both arms of a conditional, each on the lanes that take it; `repeatWhile` repeats
a body until no lane is left that wants another turn.

Code is a function from a flow to a flow, or to `none`. A loop is given *fuel*, the most turns it
may take, and `none` stands for a loop that would have gone on: it is never an answer of its own.
-/

namespace Wavefront

/-- The write mask, the state and the log of running code. -/
structure Flow (B : Backend) (n : Nat) (σ : Type) where
  mask : WriteMask B n
  state : σ
  /-- events so far that nobody has collected, oldest first -/
  log : List Event

namespace Flow

variable {B : Backend} {n : Nat} {σ : Type}

/-- Adds an event to the log. -/
def note (f : Flow B n σ) (e : Event) : Flow B n σ := { f with log := f.log ++ [e] }

/-- Opens a conditional. -/
def push (f : Flow B n σ) (cond : Mask B n) : Flow B n σ := { f with mask := f.mask.push cond }

/-- Switches to the other arm, and says so in the log when there is none. -/
def flip (f : Flow B n σ) : Flow B n σ :=
  if f.mask.depth = 0 then f.note .flipWithoutBranch else { f with mask := f.mask.flip }

/-- Closes a conditional, and says so in the log when there is none. -/
def pop (f : Flow B n σ) : Flow B n σ :=
  if f.mask.depth = 0 then f.note .popWithoutBranch else { f with mask := f.mask.pop }

/-- Narrows the active lanes to those where the condition holds. -/
def restrict (f : Flow B n σ) (cond : Mask B n) : Flow B n σ :=
  { f with mask := f.mask.restrict cond }

/-- Runs code if some lane is active. -/
def whenActive (f : Flow B n σ) (code : Flow B n σ → Option (Flow B n σ)) : Option (Flow B n σ) :=
  if f.mask.anyActive then code f else some f

/-- Runs the first arm on the active lanes where the condition holds and the second on the others.
An arm that no lane takes is skipped. -/
def branch (cond : Mask B n) (first second : Flow B n σ → Option (Flow B n σ)) (f : Flow B n σ) :
    Option (Flow B n σ) := do
  let f ← (f.push cond).whenActive first
  let f ← f.flip.whenActive second
  return f.pop

/-- The turns of a loop: narrows the active lanes to those where the condition holds, and as long as
some are left runs the body on them. Answers how many turns there were as well. -/
def turns (cond : σ → Mask B n) (body : Flow B n σ → Option (Flow B n σ)) :
    (fuel : Nat) → (taken : Nat) → Flow B n σ → Option (Flow B n σ × Nat)
  | fuel, taken, f =>
    let f := f.restrict (cond f.state)
    if f.mask.anyActive then
      match fuel with
      | 0 => none
      | fuel + 1 => do turns cond body fuel (taken + 1) (← body f)
    else some (f, taken)

/-- Repeats the body while the condition holds on some active lane. A lane leaves the first time its
condition fails, or when it is retired, and stays out until the loop ends; then all lanes that were
active before are active again. -/
def repeatWhile (fuel : Nat) (cond : σ → Mask B n) (body : Flow B n σ → Option (Flow B n σ))
    (f : Flow B n σ) : Option (Flow B n σ) := do
  let outerRetired := f.mask.retired
  let (f, taken) ← turns cond body fuel 0 { f with mask := f.mask.enterLoop }
  let f := f.note (.loopFinished taken)
  return { f with mask := f.mask.reinstate outerRetired }.pop

end Flow

end Wavefront
