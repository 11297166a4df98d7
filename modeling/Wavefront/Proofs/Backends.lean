import Wavefront.Proofs.Evaluation

/-!
# The two backends agree

An expression that is *portable*, one that uses no differences across a tile, no patterns of floats
and no registers by number, has the same lanes on the four-lane unit with `n` registers as on the
scalar backend with `4 * n`, any NaN counting as any other. If one backend refuses to evaluate the
expression, the other refuses it for the same reason. Both call the same library, whose laws are
relied on: the scalar backend has from it what the unit has instructions for. Main statement:
`Expr.eval_agree`.
-/

namespace Wavefront

variable {B B' : Backend} {n n' : Nat} {k : Kind}

/-- The same lanes in the same places, any NaN counting as any other. -/
def Batch.Alike (b : Batch B k n) (b' : Batch B' k n') : Prop :=
  ∀ i i', i.val = i'.val → Lane.Alike (b.lane i) (b'.lane i')

/-- Whatever does not look beyond lanes and the values they stand for. -/
def Dialect.portable : Dialect :=
  ⟨fun _ => true, false, false, false, true⟩

/-- Lanes of the same number are compared, on the unit and on the scalar backend with as many
lanes. -/
def Link.backends (n : Nat) (d : Dialect) (bool : d.kinds .bool = true)
    (derivatives : d.derivatives = false) (patterns : d.patterns = false)
    (registers : d.registers = false) : Link .quad n .scalar (4 * n) where
  dialect := d
  lanes i i' := i.val = i'.val
  aligned := id
  strict := false
  twin h := nomatch h
  bool := bool
  patterns h := nomatch patterns.symm.trans h
  registers h := nomatch registers.symm.trans h
  probes _ := ⟨(Nat.mul_comm n 4).trans (Nat.mul_one (4 * n)).symm, fun _ _ => id⟩
  derivatives h := nomatch derivatives.symm.trans h

namespace Script

/-- Values of one kind with the same lanes, any NaN counting as any other. -/
inductive Value.Alike : Value B n → Value B' n' → Prop
  | mk {k : Kind} {b : Batch B k n} {b' : Batch B' k n'} (h : b.Alike b') : Alike ⟨k, b⟩ ⟨k, b'⟩

/-- Variables of the same names and lanes. -/
def Alike (vars : List (String × Value B n)) (vars' : List (String × Value B' n')) : Prop :=
  ∀ name, Option.Rel Value.Alike (vars.lookup name) (vars'.lookup name)

/-- **The backends agree on expressions.** Of a portable expression, evaluated with the same
variables and a lawful library, both backends have the same lanes, any NaN counting as any other, or
neither has any and the reason is the same. -/
theorem Expr.eval_agree {lib : MathLibrary} (hlib : lib.Lawful) {n : Nat} (e : Expr)
    (he : e.isIn .portable = true) {vars : List (String × Value .quad n)}
    {vars' : List (String × Value .scalar (4 * n))} (h : Alike vars vars') :
    Agree Value.Alike (e.eval ⟨vars, .keep, lib⟩) (e.eval ⟨vars', .keep, lib⟩) := by
  let L := Link.backends n .portable rfl rfl rfl rfl
  have hscopes : L.Scopes ⟨vars, .keep, lib⟩ ⟨vars', .keep, lib⟩ := by
    refine ⟨rfl, fun _ => ⟨rfl, fun _ => hlib⟩, fun name => Link.rel_imp (h name) fun _ _ hv => ?_⟩
    obtain ⟨hb⟩ := hv
    exact .mk rfl hb
  refine ((hscopes.eval e he).agree (L.probes rfl)).imp fun _ _ hv => ?_
  obtain ⟨-, hb⟩ := hv
  exact .mk hb

/-- A variable with a NaN, a tie, a negative zero and a value without a fraction. -/
def fourLanes (B : Backend) (n : Nat) : List (String × Value B n) :=
  [("x", ⟨.float, Batch.ofFn fun i =>
    [⟨0x7fc00001⟩, ⟨0x40200000⟩, ⟨0x80000000⟩, ⟨0x4b000001⟩].getD i Single.one⟩)]

theorem fourLanes_alike (n n' : Nat) : Alike (fourLanes B n) (fourLanes B' n') := by
  intro name
  rw [fourLanes, fourLanes, List.lookup_cons, List.lookup_cons]
  split
  · refine .some (.mk fun i i' hi => ?_)
    rw [Batch.lane_ofFn, Batch.lane_ofFn, hi]
  · exact .none

/-- Rounding halves to even, a floor and a conversion there and back. -/
def roundings : Expr :=
  .binary .add (.unary .roundEven (.var "x"))
    (.binary .mul (.unary .floor (.var "x"))
      (.unary (.cast .float) (.unary (.cast .int) (.var "x"))))

/-- Of `5/2` it is `2 + 2 * 2`; the zero stays negative, and the last lane is rounded. -/
theorem eval_agree_roundings :
    MathLibrary.double.Lawful ∧ roundings.isIn .portable = true ∧
      Alike (fourLanes .quad 1) (fourLanes .scalar (4 * 1)) ∧
      ∃ (b : Batch .quad .float 1) (b' : Batch .scalar .float (4 * 1)),
        roundings.eval ⟨fourLanes .quad 1, .keep, .double⟩ = .ok ⟨.float, b⟩ ∧
        roundings.eval ⟨fourLanes .scalar (4 * 1), .keep, .double⟩ = .ok ⟨.float, b'⟩ ∧
        Value.Alike ⟨.float, b⟩ ⟨.float, b'⟩ ∧
        b.toList.map Single.isNaN = [true, false, false, false] ∧
        b'.toList.map Single.isNaN = [true, false, false, false] ∧
        (b.toList.drop 1).map Single.bits = [0x40c00000, 0x80000000, 0x56800003] ∧
        (b'.toList.drop 1).map Single.bits = [0x40c00000, 0x80000000, 0x56800003] := by
  have hagree := Expr.eval_agree MathLibrary.lawful_double roundings rfl (fourLanes_alike 1 (4 * 1))
  refine ⟨MathLibrary.lawful_double, rfl, fourLanes_alike 1 (4 * 1), _, _, rfl, rfl,
    hagree.of_ok, ?_, ?_, ?_, ?_⟩ <;> decide +kernel

end Script

end Wavefront
