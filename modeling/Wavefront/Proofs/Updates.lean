import Wavefront.Script.Run

/-!
# Refused actions

A query answers, and an update computes the new value of its variable, before anything is written.
So one that is refused has written nothing: it ends in `fail`, which replies and logs, and where the
failure is none that is logged, everything is what it was (`fail_of_unlogged`). The reply to an
update shows the old lanes of the variable.
-/

namespace Wavefront.Script

variable {B : Backend} {n : Nat} {k : Kind} {f : Flow B n (Store B n)} {scope : Scope B n}
  {w : WriteMask B n} {x y : Value B n} {name : String} {failure : Failure}

/-- A failure that leaves nothing in the log changes nothing. -/
theorem fail_of_unlogged (h : failure.events = []) (after : Option Lanes) :
    fail f failure after = (f, .failed failure after) := by
  rw [fail, h, List.foldl_nil]

theorem Action.run_query_refused {q : Query} (hq : q.eval f.state.scope = .error failure)
    (keep : Option String) : (Action.query keep q).run f = fail f failure none := by
  simp only [Action.run, hq]

theorem Action.run_update_refused {u : Update} (hx : f.state.scope.get name = .ok x)
    (hu : u.apply f.state.scope f.mask x = .error failure) :
    (Action.update name u).run f = fail f failure (some x.lanes) := by
  simp only [Action.run, hx, hu]

/-- What goes on with the answer of a batch is refused when the batch refuses it. -/
theorem lift_refused {α β : Type} {answer : Except Fault α} {fault : Fault}
    (h : answer = .error fault) (next : α → Except Failure β) :
    ((liftM answer : Except Failure α) >>= next) = .error (.fault fault) := by
  rw [h]
  rfl

/-- A batch has its own kind. -/
@[simp] theorem Value.as_mk (b : Batch B k n) : (⟨k, b⟩ : Value B n).as k = .ok b := dif_pos rfl

/-- An operation on the batch of a value is refused as it is on the batch. -/
theorem Value.refused_with {b : Batch B k n} {g : Batch B k n → Except Fault (Batch B k n)}
    {fault : Fault} (h : g b = .error fault) :
    (do return ⟨k, ← g (← (⟨k, b⟩ : Value B n).as k)⟩ : Except Failure (Value B n))
      = .error (.fault fault) := by
  rw [as_mk]
  exact lift_refused h _

/-- A write to one lane is refused as it is on the batch. -/
theorem Update.setLane_refused {b : Batch B k n} {i : Nat} {literal : Literal} {v : k.Lane}
    {fault : Fault} (hv : literal.lane k = .ok v) (h : b.setLane i v = .error fault) :
    (Update.setLane i literal).apply scope w ⟨k, b⟩ = .error (.fault fault) := by
  rw [Update.apply, hv]
  exact lift_refused h _

/-- A lane is refused as it is by the batch. -/
theorem Query.lane_refused {e : Expr} {b : Batch B k n} {i : Nat} {fault : Fault}
    (he : e.eval scope = .ok ⟨k, b⟩) (h : b.getLane i = .error fault) :
    (Query.probe (.lane e i)).eval scope = .error (.fault fault) := by
  have hprobe : (Probe.lane e i).eval scope = .error (.fault fault) := by
    rw [Probe.eval, he]
    exact lift_refused h _
  rw [Query.eval, hprobe]
  rfl

/-- A compound assignment is refused as its operation is. -/
theorem Update.combine_refused {op : Binary} {e : Expr} (he : e.eval scope = .ok y)
    (hop : op.apply scope.library scope.mode x y = .error failure) :
    (Update.combine op e).apply scope w x = .error failure := by
  rw [Update.apply, he]
  exact hop

end Wavefront.Script
