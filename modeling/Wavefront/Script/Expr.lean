import Wavefront.Batch.Builtin

/-!
# Expressions of scripts

A script computes on batches of one backend and one number of registers, which the script itself
does not mention: the same expression can be evaluated on either backend.

* A `Literal` is a lane value written out. As an operand it stands for the batch that holds it in
  every lane; a double-precision literal is narrowed to single precision once.
* An `Expr` stands for a batch.
* A `Probe` stands for one lane value that batches lead to: a reduction, a lane. As an operand it
  too stands for the batch that holds it in every lane.
* A `Query` is what a script may ask of batches: a batch itself, a lane value, a text.

Kinds are checked when an expression is evaluated, for a variable may change its kind.
-/

namespace Wavefront.Script

/-- A lane value, or a double to be narrowed to one. -/
inductive Literal
  | single (x : Single)
  | double (bits : BitVec 64)
  | int (w : Word)
  | uint (w : Word)
  | bool (b : Bool)
deriving DecidableEq

/-- The six comparisons. -/
inductive Comparison
  | eq
  | ne
  | lt
  | le
  | gt
  | ge
deriving DecidableEq

/-- Operations on one batch. -/
inductive Unary
  | neg
  | not
  | abs
  | sign
  | floor
  | trunc
  | round
  | roundEven
  | ceil
  | fract
  | modfFract
  | modfWhole
  | isNaN
  | isInfinite
  | radians
  | degrees
  | elementary (f : Elementary)
  | sqrt
  | inverseSqrt
  | length
  | normalize
  | dfdx
  | dfdy
  | fwidth
  | cast (target : Kind)
  | toBits (s : Signedness)
  | ofBits (s : Signedness)
  | shiftLeft (count : Word)
  | shiftRight (count : Word)
deriving DecidableEq

/-- Operations on two batches. -/
inductive Binary
  | add
  | sub
  | mul
  | div
  | rem
  | and
  | or
  | xor
  | compare (c : Comparison)
  | min
  | max
  | modulo
  | step
  | atan2
  | pow
  | distance
  | dot
  | reflect
deriving DecidableEq

/-- Operations on three batches. -/
inductive Ternary
  | clamp
  | mix
  | smoothstep
  | faceforward
  | refract
  /-- condition, then, else -/
  | select
  /-- else, then, condition -/
  | mixBool
  /-- target, mask, source -/
  | assignedWhere
deriving DecidableEq

mutual

/-- An expression that stands for a batch. -/
inductive Expr
  | var (name : String)
  | literal (l : Literal)
  /-- zero or false in every lane -/
  | zeros (k : Kind)
  /-- lane `i` is value `i` of the list, which starts over at its end -/
  | lanes (k : Kind) (values : List k.Lane)
  /-- the first lanes of a slice -/
  | slice (k : Kind) (values : List k.Lane)
  /-- one value for each lane, on the scalar backend -/
  | array (k : Kind) (values : List k.Lane)
  /-- one slice for each register, taken as batches of their own -/
  | parts (k : Kind) (values : List (List k.Lane))
  /-- one slice for each register, loaded as registers -/
  | registers (k : Kind) (values : List (List k.Lane))
  | unary (op : Unary) (x : Expr)
  | binary (op : Binary) (x y : Expr)
  | ternary (op : Ternary) (x y z : Expr)
  /-- `x` with one lane of one register replaced -/
  | insert (x : Expr) (register lane : Nat) (value : Literal)
  /-- an indexed read into `x` -/
  | readIndexed (x index : Expr) (candidates : List Expr)
  /-- what a probe finds, in every lane -/
  | spread (p : Probe)

/-- An expression that stands for one lane value. -/
inductive Probe
  | any (e : Expr)
  | all (e : Expr)
  | none (e : Expr)
  | count (e : Expr)
  /-- whether two batches of one kind are equal -/
  | equal (x y : Expr)
  | lane (e : Expr) (i : Nat)
  | extract (e : Expr) (register lane : Nat)

end

/-- Something a script asks. -/
inductive Query
  | batch (e : Expr)
  | literal (l : Literal)
  | probe (p : Probe)
  | bitmasks (e : Expr)
  | registerReductions (e : Expr)
  | part (e : Expr) (register : Nat)
  /-- a slice of zeros of that length with a register stored to its front -/
  | store (e : Expr) (register length : Nat)
  | text (e : Expr)
  | registersText (e : Expr)

end Wavefront.Script
