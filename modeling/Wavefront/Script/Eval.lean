import Wavefront.Script.Expr
import Wavefront.Event

/-!
# Evaluation of expressions

Arguments are evaluated from left to right and all of them, and the first failure is the failure of
the whole. A failure is a `Fault` of the library, or `malformed` for an expression that means
nothing: an unknown variable, or operands of the wrong kinds.

Expressions and probes are evaluated together, for each may hold the other: an expression comes to
a `Value`, a probe to a `LaneValue`, and `LaneValue.spread` leads from the second to the first.
-/

namespace Wavefront.Script

/-- Why an expression has no value. -/
inductive Failure
  | fault (f : Fault)
  | malformed
deriving DecidableEq

instance : MonadLift (Except Fault) (Except Failure) where
  monadLift
    | .ok x => .ok x
    | .error f => .error (.fault f)

/-- What a failure leaves in the log. -/
def Failure.events : Failure → List Event
  | fault (.unmatchedIndex lanes candidates) => [.unmatchedIndex lanes candidates]
  | _ => []

/-- A batch of some kind. -/
structure Value (B : Backend) (n : Nat) where
  kind : Kind
  batch : Batch B kind n

/-- Lanes of some kind, apart from any backend. -/
structure Lanes where
  kind : Kind
  values : List kind.Lane
deriving DecidableEq

/-- One lane of some kind. -/
structure LaneValue where
  kind : Kind
  value : kind.Lane
deriving DecidableEq

variable {B : Backend} {n : Nat}

namespace Value

/-- The lanes of a value. -/
def lanes (v : Value B n) : Lanes := ⟨v.kind, v.batch.toList⟩

/-- The batch of a value, if it has the kind. -/
def as (k : Kind) (v : Value B n) : Except Failure (Batch B k n) :=
  if h : v.kind = k then .ok (h ▸ v.batch) else .error .malformed

end Value

namespace Literal

/-- The batch that a literal stands for. -/
def value : Literal → Value B n
  | single x => ⟨.float, Batch.splat x⟩
  | double bits => ⟨.float, Batch.splat (Single.ofDouble bits)⟩
  | int w => ⟨.int, Batch.splat w⟩
  | uint w => ⟨.uint, Batch.splat w⟩
  | bool b => ⟨.bool, Batch.splat b⟩

/-- A literal as a lane of a kind. A whole number fits integers of both signs. -/
def lane : (k : Kind) → Literal → Except Failure k.Lane
  | .number .float, single x => .ok x
  | .number (.integer _), int w => .ok w
  | .number (.integer _), uint w => .ok w
  | .bool, bool b => .ok b
  | _, _ => .error .malformed

end Literal

/-! ## Operations -/

/-- Applies an operation to one value. -/
def Unary.apply (lib : MathLibrary) : Unary → Value B n → Except Failure (Value B n)
  | neg, ⟨.float, x⟩ => .ok ⟨_, -x⟩
  | neg, ⟨.int, x⟩ => .ok ⟨_, -x⟩
  | not, ⟨.number (.integer _), x⟩ => .ok ⟨_, ~~~x⟩
  | not, ⟨.bool, x⟩ => .ok ⟨_, ~~~x⟩
  | abs, ⟨.float, x⟩ => .ok ⟨_, x.abs lib⟩
  | abs, ⟨.int, x⟩ => .ok ⟨_, x.wordAbs⟩
  | sign, ⟨.float, x⟩ => .ok ⟨_, x.sign⟩
  | sign, ⟨.int, x⟩ => .ok ⟨_, x.wordSign⟩
  | floor, ⟨.float, x⟩ => .ok ⟨_, x.floor lib⟩
  | trunc, ⟨.float, x⟩ => .ok ⟨_, x.trunc lib⟩
  | round, ⟨.float, x⟩ => .ok ⟨_, x.round lib⟩
  | roundEven, ⟨.float, x⟩ => .ok ⟨_, x.roundEven lib⟩
  | ceil, ⟨.float, x⟩ => .ok ⟨_, x.ceil lib⟩
  | fract, ⟨.float, x⟩ => .ok ⟨_, x.fract lib⟩
  | modfFract, ⟨.float, x⟩ => .ok ⟨_, x.modfFract lib⟩
  | modfWhole, ⟨.float, x⟩ => .ok ⟨_, x.modfWhole lib⟩
  | isNaN, ⟨.float, x⟩ => .ok ⟨_, x.isNaN⟩
  | isInfinite, ⟨.float, x⟩ => .ok ⟨_, x.isInfinite lib⟩
  | radians, ⟨.float, x⟩ => .ok ⟨_, x.radians⟩
  | degrees, ⟨.float, x⟩ => .ok ⟨_, x.degrees⟩
  | elementary f, ⟨.float, x⟩ => .ok ⟨_, x.elementary lib f⟩
  | sqrt, ⟨.float, x⟩ => .ok ⟨_, x.sqrt lib⟩
  | inverseSqrt, ⟨.float, x⟩ => .ok ⟨_, x.inverseSqrt lib⟩
  | length, ⟨.float, x⟩ => .ok ⟨_, x.length lib⟩
  | normalize, ⟨.float, x⟩ => .ok ⟨_, x.normalize⟩
  | dfdx, ⟨.float, x⟩ => .ok ⟨_, x.dfdx⟩
  | dfdy, ⟨.float, x⟩ => .ok ⟨_, x.dfdy⟩
  | fwidth, ⟨.float, x⟩ => .ok ⟨_, x.fwidth lib⟩
  | cast target, ⟨_, x⟩ => .ok ⟨_, x.cast target⟩
  | toBits s, ⟨.float, x⟩ => .ok ⟨_, x.toBits s⟩
  | ofBits s, v => do return ⟨_, (← v.as (.number (.integer s))).ofBits⟩
  | shiftLeft count, ⟨.number (.integer _), x⟩ => .ok ⟨_, x.shiftLeft count⟩
  | shiftRight count, ⟨.number (.integer _), x⟩ => .ok ⟨_, x.shiftRight count⟩
  | _, _ => .error .malformed

/-- Applies a comparison to two values of one kind. Masks can only be equal or not. -/
def Comparison.apply (mode : Denormals) :
    Comparison → Value B n → Value B n → Except Failure (Mask B n)
  | eq, ⟨.number t, x⟩, y => do return x.cmpEq mode (← y.as (.number t))
  | ne, ⟨.number t, x⟩, y => do return x.cmpNe mode (← y.as (.number t))
  | lt, ⟨.number t, x⟩, y => do return x.cmpLt mode (← y.as (.number t))
  | le, ⟨.number t, x⟩, y => do return x.cmpLe mode (← y.as (.number t))
  | gt, ⟨.number t, x⟩, y => do return x.cmpGt mode (← y.as (.number t))
  | ge, ⟨.number t, x⟩, y => do return x.cmpGe mode (← y.as (.number t))
  | eq, ⟨.bool, x⟩, y => do return Mask.eq x (← y.as .bool)
  | ne, ⟨.bool, x⟩, y => do return Mask.ne x (← y.as .bool)
  | _, _, _ => .error .malformed

/-- Applies an operation to two values. -/
def Binary.apply (lib : MathLibrary) (mode : Denormals) :
    Binary → Value B n → Value B n → Except Failure (Value B n)
  | add, ⟨.number t, x⟩, y => do return ⟨_, x.add mode (← y.as (.number t))⟩
  | sub, ⟨.number t, x⟩, y => do return ⟨_, x.sub mode (← y.as (.number t))⟩
  | mul, ⟨.number t, x⟩, y => do return ⟨_, x.mul mode (← y.as (.number t))⟩
  | div, ⟨.number t, x⟩, y => do return ⟨_, ← x.div mode (← y.as (.number t))⟩
  | rem, ⟨.number (.integer s), x⟩, y => do
    return ⟨_, ← x.remainder (← y.as (.number (.integer s)))⟩
  | and, ⟨.number (.integer s), x⟩, y => do return ⟨_, x &&& (← y.as (.number (.integer s)))⟩
  | and, ⟨.bool, x⟩, y => do return ⟨_, x &&& (← y.as .bool)⟩
  | or, ⟨.number (.integer s), x⟩, y => do return ⟨_, x ||| (← y.as (.number (.integer s)))⟩
  | or, ⟨.bool, x⟩, y => do return ⟨_, x ||| (← y.as .bool)⟩
  | xor, ⟨.number (.integer s), x⟩, y => do return ⟨_, x ^^^ (← y.as (.number (.integer s)))⟩
  | xor, ⟨.bool, x⟩, y => do return ⟨_, x ^^^ (← y.as .bool)⟩
  | compare c, x, y => do return ⟨_, ← c.apply mode x y⟩
  | min, ⟨.number t, x⟩, y => do return ⟨_, x.min (← y.as (.number t))⟩
  | max, ⟨.number t, x⟩, y => do return ⟨_, x.max (← y.as (.number t))⟩
  | modulo, ⟨.float, x⟩, y => do return ⟨_, x.modulo lib (← y.as .float)⟩
  | step, ⟨.float, x⟩, y => do return ⟨_, x.step (← y.as .float)⟩
  | atan2, ⟨.float, x⟩, y => do return ⟨_, x.atan2 lib (← y.as .float)⟩
  | pow, ⟨.float, x⟩, y => do return ⟨_, x.pow lib (← y.as .float)⟩
  | distance, ⟨.float, x⟩, y => do return ⟨_, x.distance lib (← y.as .float)⟩
  | dot, ⟨.float, x⟩, y => do return ⟨_, x.dot (← y.as .float)⟩
  | reflect, ⟨.float, x⟩, y => do return ⟨_, x.reflect (← y.as .float)⟩
  | _, _, _ => .error .malformed

/-- Applies an operation to three values. -/
def Ternary.apply (lib : MathLibrary) :
    Ternary → Value B n → Value B n → Value B n → Except Failure (Value B n)
  | clamp, ⟨.number t, x⟩, y, z => do
    return ⟨_, x.clamp (← y.as (.number t)) (← z.as (.number t))⟩
  | mix, ⟨.float, x⟩, y, z => do return ⟨_, x.mix (← y.as .float) (← z.as .float)⟩
  | smoothstep, ⟨.float, x⟩, y, z => do return ⟨_, x.smoothstep (← y.as .float) (← z.as .float)⟩
  | faceforward, ⟨.float, x⟩, y, z => do return ⟨_, x.faceforward (← y.as .float) (← z.as .float)⟩
  | refract, ⟨.float, x⟩, y, z => do return ⟨_, x.refract lib (← y.as .float) (← z.as .float)⟩
  | select, ⟨.bool, cond⟩, ⟨k, x⟩, y => do return ⟨k, Batch.select cond x (← y.as k)⟩
  | mixBool, ⟨k, x⟩, y, ⟨.bool, cond⟩ => do return ⟨k, x.assignMasked cond (← y.as k)⟩
  | assignedWhere, ⟨k, x⟩, ⟨.bool, mask⟩, y => do return ⟨k, x.assignMasked mask (← y.as k)⟩
  | _, _, _, _ => .error .malformed

/-! ## Constructors -/

/-- A batch whose lane `i` is value `i` of the list, which starts over at its end. -/
def cycle {k : Kind} (values : List k.Lane) : Except Failure (Batch B k n) :=
  if h : 0 < values.length then
    Batch.ofFnM fun i => return values.get ⟨i % values.length, Nat.mod_lt _ h⟩
  else .error .malformed

/-- A scalar batch with the given values, one for each register. -/
def ofArray : {B : Backend} → {k : Kind} → List k.Lane → Except Failure (Batch B k n)
  | .scalar, _, values =>
    if h : values.length = n then .ok ⟨Vector.ofFn fun (i : Fin n) => Reg.splat values[i]⟩
    else .error .malformed
  | .quad, _, _ => .error .malformed

/-! ## Lane values -/

/-- The value with a lane value in every lane. -/
def LaneValue.spread (v : LaneValue) : Value B n := ⟨v.kind, Batch.splat v.value⟩

/-- A truth value as a lane. -/
def LaneValue.ofBool (b : Bool) : LaneValue := ⟨.bool, b⟩

/-- A number as a lane. A batch has few enough lanes to be counted in one. -/
def LaneValue.ofCount (count : Nat) : LaneValue := ⟨.uint, BitVec.ofNat 32 count⟩

/-! ## Expressions -/

/-- What an expression can see: the variables, how arithmetic treats subnormal values, and the
library of functions. The four operations of arithmetic and the comparisons of expressions follow
the mode; whatever else is computed with floats is described where subnormal values are kept. -/
structure Scope (B : Backend) (n : Nat) where
  vars : List (String × Value B n)
  mode : Denormals
  library : MathLibrary

/-- The value of a variable. -/
def Scope.get (scope : Scope B n) (name : String) : Except Failure (Value B n) :=
  match scope.vars.lookup name with
  | some v => .ok v
  | none => .error .malformed

/-- An indexed read as an expression: of candidates of the target's kind, by an integer index. -/
def readIndexed (x index : Value B n) (candidates : List (Value B n)) :
    Except Failure (Value B n) := do
  let candidates ← candidates.mapM (Value.as x.kind)
  match index with
  | ⟨.number (.integer _), index⟩ => return ⟨x.kind, ← x.batch.readIndexedFrom index candidates⟩
  | _ => throw .malformed

mutual

/-- The value of an expression. -/
def Expr.eval (scope : Scope B n) : Expr → Except Failure (Value B n)
  | .var name => scope.get name
  | .literal l => .ok l.value
  | .zeros k => .ok ⟨k, Batch.zeros⟩
  | .lanes k values => do return ⟨k, ← cycle values⟩
  | .slice k values => do return ⟨k, ← (Batch.ofSlice values : Except Fault (Batch B k n))⟩
  | .array k values => do return ⟨k, ← ofArray values⟩
  | .parts k values =>
    if h : values.length = n then do
      let parts ← Vector.ofFnM fun (i : Fin n) =>
        (Batch.ofSlice values[i] : Except Fault (Batch B k 1))
      return ⟨k, Batch.ofParts parts⟩
    else .error .malformed
  | .registers k values =>
    if h : values.length = n then do
      let regs ← Vector.ofFnM fun (i : Fin n) => (Reg.load values[i] : Except Fault (Reg B k))
      return ⟨k, ⟨regs⟩⟩
    else .error .malformed
  | .unary op x => do op.apply scope.library (← x.eval scope)
  | .binary op x y => do
    let x ← x.eval scope
    let y ← y.eval scope
    op.apply scope.library scope.mode x y
  | .ternary op x y z => do
    let x ← x.eval scope
    let y ← y.eval scope
    let z ← z.eval scope
    op.apply scope.library x y z
  | .insert x register lane value => do
    let x ← x.eval scope
    let value ← value.lane x.kind
    let reg ← x.batch.register register
    let reg ← reg.insert lane value
    return ⟨x.kind, ← x.batch.setRegister register reg⟩
  | .readIndexed x index candidates => do
    let x ← x.eval scope
    let index ← index.eval scope
    let candidates ← Expr.evalAll scope candidates
    Script.readIndexed x index candidates
  | .spread p => do return (← p.eval scope).spread

/-- The values of expressions, in order. -/
def Expr.evalAll (scope : Scope B n) : List Expr → Except Failure (List (Value B n))
  | [] => .ok []
  | e :: es => do
    let v ← e.eval scope
    let vs ← Expr.evalAll scope es
    return v :: vs

/-- The lane value of a probe. -/
def Probe.eval (scope : Scope B n) : Probe → Except Failure LaneValue
  | .any e => do return .ofBool (Mask.any (← (← e.eval scope).as .bool))
  | .all e => do return .ofBool (Mask.all (← (← e.eval scope).as .bool))
  | .none e => do return .ofBool (Mask.none (← (← e.eval scope).as .bool))
  | .count e => do return .ofCount (Mask.count (← (← e.eval scope).as .bool))
  | .equal x y => do
    let x ← x.eval scope
    let y ← y.eval scope
    return .ofBool (x.batch.equal (← y.as x.kind))
  | .lane e i => do
    let v ← e.eval scope
    return ⟨v.kind, ← v.batch.getLane i⟩
  | .extract e register place => do
    let v ← e.eval scope
    return ⟨v.kind, ← (← v.batch.register register).extract place⟩

end

/-- The mask that an expression stands for. -/
def Expr.evalMask (scope : Scope B n) (e : Expr) : Except Failure (Mask B n) := do
  (← e.eval scope).as .bool

/-! ## Queries -/

/-- The answer to a query. -/
inductive Observation
  /-- the lanes of a batch, of one register or of a slice -/
  | lanes (l : Lanes)
  | lane (v : LaneValue)
  /-- a double-precision pattern -/
  | double (bits : BitVec 64)
  | numbers (is : List Nat)
  | flagPairs (bs : List (Bool × Bool))
  | text (s : String)
deriving DecidableEq

/-- What a bare literal answers: itself, not narrowed. -/
def Literal.observation : Literal → Observation
  | single x => .lane ⟨.float, x⟩
  | double bits => .double bits
  | int w => .lane ⟨.int, w⟩
  | uint w => .lane ⟨.uint, w⟩
  | bool b => .lane ⟨.bool, b⟩

/-- Answers a query. A batch, a literal and a probe also answer a value, which the asker may
keep. -/
def Query.eval (scope : Scope B n) : Query → Except Failure (Observation × Option (Value B n))
  | batch e => do
    let v ← e.eval scope
    return (.lanes v.lanes, some v)
  | literal l => .ok (l.observation, some l.value)
  | probe p => do
    let v ← p.eval scope
    return (.lane v, some v.spread)
  | bitmasks e => do return (.numbers (Mask.bitmasks (← e.evalMask scope)), none)
  | registerReductions e => do
    return (.flagPairs (Mask.registerReductions (← e.evalMask scope)), none)
  | part e register => do
    let v ← e.eval scope
    return (.lanes ⟨v.kind, (← v.batch.part register).toList⟩, none)
  | store e register length => do
    let v ← e.eval scope
    let reg ← v.batch.register register
    let values ← reg.store (List.replicate length v.kind.zeroLane)
    return (.lanes ⟨v.kind, values⟩, none)
  | text e => do return (.text (← e.eval scope).batch.text, none)
  | registersText e => do return (.text (← e.eval scope).batch.registersText, none)

end Wavefront.Script
