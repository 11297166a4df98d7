import Wavefront.Batch.Select

/-!
# The write mask of divergent control flow

Lanes in lock step cannot branch apart. Every arm of a conditional is executed for all of them, and
a `WriteMask` says which lanes take part: writes reach only the *active* lanes.

* `push` narrows the active lanes to those where a condition holds and remembers, in a frame, the
  condition and the lanes that were active before. `flip` switches to the lanes of that frame where
  the condition does not hold, `pop` goes back to all of its lanes and drops the frame.
* `retire` takes lanes out of every frame they are in: neither `flip` nor `pop` brings a retired
  lane back. Inside a loop this is leaving the loop, outside of any it is leaving for good.

Without an open frame `flip` and `pop` change nothing.
-/

namespace Wavefront

/-- An open conditional. -/
structure Frame (B : Backend) (n : Nat) where
  /-- the lanes that were active when it was opened -/
  parent : Mask B n
  /-- where its condition held -/
  cond : Mask B n

/-- Which lanes take part, and how to get back to those that wait. -/
structure WriteMask (B : Backend) (n : Nat) where
  /-- lanes that writes reach -/
  active : Mask B n
  /-- lanes that left the innermost loop, or left for good outside of any -/
  retired : Mask B n
  /-- the open conditionals, innermost first -/
  frames : List (Frame B n)

namespace WriteMask

variable {B : Backend} {n : Nat}

/-- All lanes active, nothing open. -/
def fresh : WriteMask B n := ⟨Batch.splat true, Batch.splat false, []⟩

/-- How many conditionals are open. -/
def depth (w : WriteMask B n) : Nat := w.frames.length

/-- Some lane is active. -/
def anyActive (w : WriteMask B n) : Bool := Mask.any w.active

/-- Opens a conditional and starts its first arm. -/
def push (w : WriteMask B n) (cond : Mask B n) : WriteMask B n :=
  { w with active := w.active &&& cond, frames := ⟨w.active, cond⟩ :: w.frames }

/-- Switches to the other arm of the innermost conditional. -/
def flip (w : WriteMask B n) : WriteMask B n :=
  match w.frames with
  | [] => w
  | frame :: _ => { w with active := frame.parent &&& ~~~frame.cond &&& ~~~w.retired }

/-- Closes the innermost conditional. -/
def pop (w : WriteMask B n) : WriteMask B n :=
  match w.frames with
  | [] => w
  | frame :: frames => { w with active := frame.parent &&& ~~~w.retired, frames }

/-- Retires the active lanes where the condition holds. -/
def retire (w : WriteMask B n) (cond : Mask B n) : WriteMask B n :=
  { w with retired := w.retired ||| (w.active &&& cond), active := w.active &&& ~~~cond }

/-- Narrows the active lanes without opening anything. -/
def restrict (w : WriteMask B n) (cond : Mask B n) : WriteMask B n :=
  { w with active := w.active &&& cond }

/-- Assigns to the active lanes only. -/
def assign {k : Kind} (w : WriteMask B n) (target source : Batch B k n) : Batch B k n :=
  target.assignMasked w.active source

/-! ## Loops -/

/-- Enters a loop: no lane has left it yet, and a frame remembers who came in. -/
def enterLoop (w : WriteMask B n) : WriteMask B n :=
  { w with retired := Batch.splat false }.push (Batch.splat true)

/-- Makes the lanes retired before a loop the retired ones again, so that those that only left the
loop can go on. -/
def reinstate (w : WriteMask B n) (outerRetired : Mask B n) : WriteMask B n :=
  { w with retired := outerRetired }

/-! ## Text -/

/-- The text of a frame. -/
def frameText (f : Frame B n) : String :=
  "Frame \x7b parent: " ++ f.parent.text ++ ", cond: " ++ f.cond.text ++ " \x7d"

/-- The text of a write mask; the innermost frame comes last. -/
def text (w : WriteMask B n) : String :=
  "WriteMask \x7b active: " ++ w.active.text ++ ", retired: " ++ w.retired.text ++ ", frames: ["
    ++ ", ".intercalate (w.frames.reverse.map frameText) ++ "] \x7d"

end WriteMask

end Wavefront
