import Wavefront.Script.Eval
import Wavefront.Batch.Memory
import Wavefront.FloatControl
import Wavefront.Flow

/-!
# Steps of scripts

A script is a list of steps. An `Action` is a step without steps of its own: it asks a query, writes
a variable, moves memory, moves the write mask or creates and drops guards. The other two steps are
a branch and a loop over further steps.

`Store` is what the steps share besides the write mask, and `Action.run` what an action does to it
and replies. An action that fails leaves everything as it was, with one exception: an indexed read
has written the lanes that did match before it fails.
-/

namespace Wavefront.Script

/-! ## Syntax -/

/-- Moves of the write mask. -/
inductive MaskMove
  | fresh
  | push (cond : Expr)
  | flip
  | pop
  | retire (cond : Expr)
  /-- no move: only look -/
  | look
  /-- go back to the last saved mask -/
  | restore

/-- Writes to one variable. -/
inductive Update
  | assign (e : Expr)
  | assignMasked (mask e : Expr)
  /-- assigns to the active lanes of the write mask -/
  | assignActive (e : Expr)
  | setLane (i : Nat) (value : Literal)
  /-- replaces one register by the first lanes of a slice -/
  | setPart (register : Nat) (values : List Literal)
  /-- the variable combined with an operand -/
  | combine (op : Binary) (e : Expr)
  /-- the variable under an operation of its own -/
  | transform (op : Unary)

/-- A step without steps of its own. -/
inductive Action
  /-- asks, and keeps the value of the answer, if it has one, under a name -/
  | query (keep : Option String) (q : Query)
  | update (name : String) (u : Update)
  | readIndexed (name : String) (index : Expr) (candidates : List Expr)
  | store (e : Expr) (offset length : Nat)
  | load (keep : String) (k : Kind) (offset length : Nat)
  /-- writes memory directly -/
  | poke (k : Kind) (offset : Nat) (values : List k.Lane)
  | mask (move : MaskMove)
  | saveMask
  | maskText
  /-- creates a guard -/
  | guard
  /-- creates a guard, an empty one unless flushing is wanted -/
  | guardIf (flush : Bool)
  /-- drops the last guard -/
  | dropGuard

/-- A step of a script. -/
inductive Step
  | action (a : Action)
  | branch (cond : Expr) (first second : List Step)
  | loop (cond : Expr) (body : List Step)

/-! ## State -/

/-- The memories of a script, one for each kind. -/
structure Memories where
  floats : Memory .float
  ints : Memory .int
  uints : Memory .uint
  bools : Memory .bool

namespace Memories

/-- How many cells each memory has. -/
def cellCount : Nat := 24

/-- All cells zero or false. -/
def fresh : Memories :=
  ⟨Memory.zeros cellCount, Memory.zeros cellCount, Memory.zeros cellCount, Memory.zeros cellCount⟩

/-- The memory of a kind. -/
def get (m : Memories) : (k : Kind) → Memory k
  | .float => m.floats
  | .int => m.ints
  | .uint => m.uints
  | .bool => m.bools

/-- Replaces the memory of a kind. -/
def set (m : Memories) : (k : Kind) → Memory k → Memories
  | .float, floats => { m with floats }
  | .int, ints => { m with ints }
  | .uint, uints => { m with uints }
  | .bool, bools => { m with bools }

end Memories

/-- What the steps of a script share besides the write mask. -/
structure Store (B : Backend) (n : Nat) where
  /-- the variables, the last written first -/
  vars : List (String × Value B n)
  /-- the saved write masks, the last saved first -/
  saved : List (WriteMask B n)
  memories : Memories
  control : FloatControl
  library : MathLibrary

namespace Store

variable {B : Backend} {n : Nat}

/-- No variables, empty memories, no guards. -/
def fresh (lib : MathLibrary) : Store B n := ⟨[], [], Memories.fresh, FloatControl.fresh, lib⟩

/-- What expressions see of the store. -/
def scope (s : Store B n) : Scope B n := ⟨s.vars, s.control.denormals, s.library⟩

/-- Writes a variable. -/
def put (s : Store B n) (name : String) (v : Value B n) : Store B n :=
  { s with vars := (name, v) :: s.vars.filter fun entry => entry.1 != name }

end Store

/-! ## Replies -/

/-- The active lanes, how many conditionals are open, and whether any lane is active. -/
structure MaskState where
  active : List Bool
  depth : Nat
  anyActive : Bool
deriving DecidableEq

/-- What the write mask shows. -/
def MaskState.of {B : Backend} {n : Nat} (w : WriteMask B n) : MaskState :=
  ⟨w.active.toList, w.depth, w.anyActive⟩

/-- What an action replies. -/
inductive Reply
  | observed (o : Observation)
  /-- the lanes of a variable after a write -/
  | written (l : Lanes)
  /-- a failure, and the lanes of the variable it was about -/
  | failed (f : Failure) (after : Option Lanes)
  /-- a rejected memory access -/
  | rejected (e : MemoryError)
  /-- a memory after a write -/
  | memory (l : Lanes)
  | maskState (m : MaskState)
  /-- how many masks are saved -/
  | saved (count : Nat)
  /-- how many guards there are -/
  | guards (count : Nat)
  /-- how many guards there are, and whether the last one is a real one -/
  | guardsAndLast (count : Nat) (isReal : Bool)
deriving DecidableEq

/-- The answer to a step, with the events it left in the log. -/
inductive Answer
  | action (reply : Reply) (log : List Event)
  /-- the mask after a branch, and the answers of the arms that were run -/
  | branch (state : MaskState) (first second : Option (List Answer)) (log : List Event)
  /-- the mask after a loop, and the answers of every turn -/
  | loop (state : MaskState) (turns : List (List Answer)) (log : List Event)

end Wavefront.Script
