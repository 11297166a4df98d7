import Wavefront.Proofs.Evaluation

/-!
# No lane sees another

Two evaluations of one expression on one machine, with variables that agree on some lanes only. An
expression without differences across a tile is *pointwise*: what it has in a lane depends on that
lane of the variables and on no other. Differences widen this, on the four-lane unit, to the lanes
of the same register, and a single difference to the two lanes it is the difference of. Main
statement: `Expr.lane_of_agreeOn`.

Both evaluations have to succeed: whether a division or an indexed read is refused depends on all
lanes. Of the library it is enough that both evaluations call the same one.
-/

namespace Wavefront

variable {B : Backend} {n : Nat} {k : Kind}

/-! ## What an expression may look at -/

/-- Everything that looks at one lane at a time, also at the pattern of a float and at registers by
number. -/
def Dialect.pointwise : Dialect :=
  ⟨fun _ => true, false, true, true, false⟩

/-- Differences across a tile as well. -/
def Dialect.tiled : Dialect :=
  ⟨fun _ => true, true, true, true, false⟩

namespace Batch

/-- Lanes of one register. -/
def SameRegister (i j : Fin (width B n)) : Prop := registerOf j = registerOf i

/-- Lanes of one row of a tile: places 0 and 1, or 2 and 3. -/
def SameRow (i j : Fin (width B n)) : Prop :=
  registerOf j = registerOf i ∧ (placeOf j).val / 2 = (placeOf i).val / 2

/-- Lanes of one column of a tile: places 0 and 2, or 1 and 3. -/
def SameColumn (i j : Fin (width B n)) : Prop :=
  registerOf j = registerOf i ∧ (placeOf j).val % 2 = (placeOf i).val % 2

/-- The same values, bit for bit, in some lanes. -/
def AgreeOn (S : Fin (width B n) → Prop) (b b' : Batch B k n) : Prop :=
  ∀ i, S i → b.lane i = b'.lane i

end Batch

namespace Script

/-- Values of one kind that agree in some lanes. -/
inductive Value.AgreeOn (S : Fin (Batch.width B n) → Prop) : Value B n → Value B n → Prop
  | mk {k : Kind} {b b' : Batch B k n} (h : b.AgreeOn S b') : AgreeOn S ⟨k, b⟩ ⟨k, b'⟩

/-- Variables of the same names and kinds that agree in some lanes. -/
def AgreeOn (S : Fin (Batch.width B n) → Prop) (vars vars' : List (String × Value B n)) : Prop :=
  ∀ name, Option.Rel (Value.AgreeOn S) (vars.lookup name) (vars'.lookup name)

end Script

/-! ## Lanes of one machine -/

/-- Some lanes of one machine are compared, with all lanes of their registers if differences across
a tile are allowed. -/
def Link.within (S : Fin (Batch.width B n) → Prop) (d : Dialect) (bool : d.kinds .bool = true)
    (probes : d.probes = false)
    (closed : d.derivatives = true → ∀ i j, S i → Batch.SameRegister i j → S j) :
    Link B n B n where
  dialect := d
  lanes i i' := i = i' ∧ S i
  aligned h := congrArg Fin.val h.1
  strict := true
  twin _ := ⟨rfl, rfl⟩
  bool := bool
  patterns _ := rfl
  registers _ := rfl
  probes h := nomatch probes.symm.trans h
  derivatives hd := ⟨rfl, fun hi hj hval =>
    ⟨Fin.ext hval, closed hd _ _ hi.2 (Fin.ext hj)⟩⟩

namespace Script

open Batch

variable {S : Fin (width B n) → Prop} {vars vars' : List (String × Value B n)}
variable {lib : MathLibrary} {v v' : Value B n}

/-- Variables that agree in some lanes lead to values that agree there. -/
theorem agreeOn_of_isIn {d : Dialect} (hkinds : ∀ k, d.kinds k = true) (hprobes : d.probes = false)
    (hclosed : d.derivatives = true → ∀ i j, S i → SameRegister i j → S j) {e : Expr}
    (he : e.isIn d = true) (h : AgreeOn S vars vars') (hv : e.eval ⟨vars, .keep, lib⟩ = .ok v)
    (hv' : e.eval ⟨vars', .keep, lib⟩ = .ok v') : v.AgreeOn S v' := by
  let L := Link.within S d (hkinds .bool) hprobes hclosed
  have hscopes : L.Scopes ⟨vars, .keep, lib⟩ ⟨vars', .keep, lib⟩ := by
    refine ⟨rfl, fun _ => ⟨rfl, fun hs => nomatch hs⟩, fun name => ?_⟩
    refine Link.rel_imp (h name) fun _ _ hw => ?_
    obtain ⟨hb⟩ := hw
    refine .mk (hkinds _) fun i i' hi => ?_
    obtain ⟨rfl, hi⟩ := hi
    exact hb i hi
  have houtcome := hscopes.eval e he
  rw [hv, hv'] at houtcome
  cases houtcome with
  | ok hvalues =>
    obtain ⟨-, hb⟩ := hvalues
    exact .mk fun i hi => hb i i ⟨rfl, hi⟩

/-- An operation on a pointwise expression is one on operands that agree where the variables do. -/
theorem operands_agreeOn {op : Unary} {x : Expr} (hx : x.isIn .pointwise = true)
    (h : AgreeOn S vars vars') (hv : (Expr.unary op x).eval ⟨vars, .keep, lib⟩ = .ok v)
    (hv' : (Expr.unary op x).eval ⟨vars', .keep, lib⟩ = .ok v') :
    ∃ w w' : Value B n, w.AgreeOn S w' ∧ op.apply lib w = .ok v ∧ op.apply lib w' = .ok v' := by
  rw [Expr.eval] at hv hv'
  cases hw : x.eval ⟨vars, .keep, lib⟩ with
  | error => rw [hw] at hv; exact nomatch hv
  | ok w =>
    cases hw' : x.eval ⟨vars', .keep, lib⟩ with
    | error => rw [hw'] at hv'; exact nomatch hv'
    | ok w' =>
      rw [hw] at hv
      rw [hw'] at hv'
      exact ⟨w, w', agreeOn_of_isIn (d := .pointwise) (fun _ => rfl) rfl nofun hx h hw hw', hv, hv'⟩

end Script

/-! ## Single differences -/

/-- A horizontal difference reads one row of its register. -/
theorem Reg.lane_acrossColumns_congr {r r' : Reg B .float} (i : Fin B.lanes)
    (h : ∀ p : Fin B.lanes, p.val / 2 = i.val / 2 → r.lane p = r'.lane p) :
    (Reg.acrossColumns r).lane i = (Reg.acrossColumns r').lane i := by
  match B with
  | .scalar => rfl
  | .quad =>
    have hget : ∀ p : Fin 4, p.val / 2 = i.val / 2 → Vector.get r p = Vector.get r' p :=
      fun p hp => congrArg Single.bits (h p hp)
    refine congrArg Single.mk ?_
    refine (Quad.Float.get_acrossColumns r i).trans
      (Eq.trans ?_ (Quad.Float.get_acrossColumns r' i).symm)
    rw [hget (Tile.right i) (by simp only [Tile.right]; omega),
      hget (Tile.left i) (by simp only [Tile.left]; omega)]

/-- A vertical difference reads one column of its register. -/
theorem Reg.lane_acrossRows_congr {r r' : Reg B .float} (i : Fin B.lanes)
    (h : ∀ p : Fin B.lanes, p.val % 2 = i.val % 2 → r.lane p = r'.lane p) :
    (Reg.acrossRows r).lane i = (Reg.acrossRows r').lane i := by
  match B with
  | .scalar => rfl
  | .quad =>
    have hget : ∀ p : Fin 4, p.val % 2 = i.val % 2 → Vector.get r p = Vector.get r' p :=
      fun p hp => congrArg Single.bits (h p hp)
    refine congrArg Single.mk ?_
    refine (Quad.Float.get_acrossRows r i).trans
      (Eq.trans ?_ (Quad.Float.get_acrossRows r' i).symm)
    rw [hget (Tile.lower i) (by simp only [Tile.lower]; omega),
      hget (Tile.upper i) (by simp only [Tile.upper]; omega)]

namespace Batch

variable {x x' : Batch B .float n} {i : Fin (width B n)}

theorem AgreeOn.dfdx (h : x.AgreeOn (SameRow i) x') : x.dfdx.lane i = x'.dfdx.lane i := by
  rw [Batch.dfdx, Batch.dfdx, lane_mapRegs, lane_mapRegs]
  refine Reg.lane_acrossColumns_congr _ fun p hp => ?_
  rw [← lane_laneAt, ← lane_laneAt]
  exact h _ ⟨registerOf_laneAt _ _, by rwa [placeOf_laneAt]⟩

theorem AgreeOn.dfdy (h : x.AgreeOn (SameColumn i) x') : x.dfdy.lane i = x'.dfdy.lane i := by
  rw [Batch.dfdy, Batch.dfdy, lane_mapRegs, lane_mapRegs]
  refine Reg.lane_acrossRows_congr _ fun p hp => ?_
  rw [← lane_laneAt, ← lane_laneAt]
  exact h _ ⟨registerOf_laneAt _ _, by rwa [placeOf_laneAt]⟩

/-- A register of the scalar backend is a lane. -/
theorem eq_of_sameRegister {i j : Fin (width .scalar n)} (h : SameRegister i j) : j = i :=
  eq_of_register_of_place h ((Reg.scalar_lane_eq _).trans (Reg.scalar_lane_eq _).symm)

end Batch

namespace Script

open Batch

variable {vars vars' : List (String × Value B n)} {lib : MathLibrary} {v v' : Value B n}

/-- A difference agrees in a lane if its operands agree in the lanes that it reads for it. -/
theorem Value.AgreeOn.difference {S : Fin (width B n) → Prop} {i : Fin (width B n)} {op : Unary}
    {f : Batch B .float n → Batch B .float n} {w w' : Value B n} (hw : w.AgreeOn S w')
    (hfloat : ∀ x, op.apply lib ⟨.float, x⟩ = .ok ⟨.float, f x⟩)
    (hinteger : ∀ s x, op.apply lib (⟨.number (.integer s), x⟩ : Value B n) = .error .malformed)
    (hbool : ∀ x, op.apply lib (⟨.bool, x⟩ : Value B n) = .error .malformed)
    (hf : ∀ x x', x.AgreeOn S x' → (f x).lane i = (f x').lane i) (hv : op.apply lib w = .ok v)
    (hv' : op.apply lib w' = .ok v') : v.AgreeOn (· = i) v' := by
  obtain ⟨hb⟩ := hw
  rename_i k b b'
  match k with
  | .float =>
    cases (hfloat b).symm.trans hv
    cases (hfloat b').symm.trans hv'
    exact .mk fun j hj => hj ▸ hf b b' hb
  | .number (.integer s) => exact nomatch (hinteger s b).symm.trans hv
  | .bool => exact nomatch (hbool b).symm.trans hv

/-- **No lane sees another.** Two evaluations that succeed have the same in lane `i` if the
variables agree in that lane and the expression is pointwise, or if they agree in the register of
the lane; on the scalar backend that is the lane itself. A difference of a pointwise expression
depends on the row or on the column of the lane only. The functions of the library may be any. -/
theorem Expr.lane_of_agreeOn (e : Expr) (hv : e.eval ⟨vars, .keep, lib⟩ = .ok v)
    (hv' : e.eval ⟨vars', .keep, lib⟩ = .ok v') (i : Fin (width B n)) :
    (e.isIn .pointwise = true → AgreeOn (· = i) vars vars' → v.AgreeOn (· = i) v') ∧
    (e.isIn .tiled = true → AgreeOn (SameRegister i) vars vars' → v.AgreeOn (· = i) v') ∧
    (B = .scalar → e.isIn .tiled = true → AgreeOn (· = i) vars vars' → v.AgreeOn (· = i) v') ∧
    (∀ x, e = .unary .dfdx x → x.isIn .pointwise = true → AgreeOn (SameRow i) vars vars' →
      v.AgreeOn (· = i) v') ∧
    (∀ x, e = .unary .dfdy x → x.isIn .pointwise = true → AgreeOn (SameColumn i) vars vars' →
      v.AgreeOn (· = i) v') := by
  refine ⟨fun he h => ?pointwise, fun he h => ?register, fun hB he h => ?scalar,
    fun x hx he h => ?row, fun x hx he h => ?column⟩
  case pointwise =>
    exact agreeOn_of_isIn (d := .pointwise) (fun _ => rfl) rfl nofun he h hv hv'
  case register =>
    have hclosed : ∀ j j', SameRegister i j → SameRegister j j' → SameRegister i j' :=
      fun _ _ hj hj' => hj'.trans hj
    obtain ⟨hb⟩ := agreeOn_of_isIn (fun _ => rfl) rfl (fun _ => hclosed) he h hv hv'
    exact .mk fun j hj => hb j (congrArg registerOf hj)
  case scalar =>
    subst hB
    have hclosed : ∀ j j', j = i → SameRegister j j' → j' = i :=
      fun _ _ hj hj' => (eq_of_sameRegister hj').trans hj
    exact agreeOn_of_isIn (fun _ => rfl) rfl (fun _ => hclosed) he h hv hv'
  case row =>
    subst hx
    obtain ⟨w, w', hw, hv, hv'⟩ := operands_agreeOn he h hv hv'
    exact hw.difference (fun _ => rfl) (fun _ _ => rfl) (fun _ => rfl) (fun _ _ => AgreeOn.dfdx) hv
      hv'
  case column =>
    subst hx
    obtain ⟨w, w', hw, hv, hv'⟩ := operands_agreeOn he h hv hv'
    exact hw.difference (fun _ => rfl) (fun _ _ => rfl) (fun _ => rfl) (fun _ _ => AgreeOn.dfdy) hv
      hv'

/-- One variable, with values for the first lanes. -/
def oneVariable (values : List Single) : List (String × Value .quad 1) :=
  [("x", ⟨.float, Batch.ofFn fun i => values.getD i Single.one⟩)]

/-- Two tiles with the same upper row. -/
theorem agreeOn_upperRow (a b c d c' d' : Single) :
    AgreeOn (SameRow ⟨0, by decide⟩) (oneVariable [a, b, c, d]) (oneVariable [a, b, c', d']) := by
  intro name
  rw [oneVariable, oneVariable, List.lookup_cons, List.lookup_cons]
  split
  case h_2 => exact .none
  refine .some (.mk fun j hj => ?_)
  have hrow : j.val % 4 / 2 = 0 := hj.2
  have hlt : j.val < 4 := j.isLt
  have hupper : j.val < 2 := by omega
  rw [Batch.lane_ofFn, Batch.lane_ofFn]
  match j, hupper with
  | ⟨0, _⟩, _ | ⟨1, _⟩, _ => rfl

/-- The difference in the upper row is `2 - 1`, whatever is below. -/
theorem lane_of_agreeOn_upperRow :
    ∃ b b' : Batch .quad .float 1,
      (Expr.unary .dfdx (.var "x")).eval
        ⟨oneVariable [.one, .two, .half, .three], .keep, .double⟩ = .ok ⟨.float, b⟩ ∧
      (Expr.unary .dfdx (.var "x")).eval
        ⟨oneVariable [.one, .two, .nan, .one], .keep, .double⟩ = .ok ⟨.float, b'⟩ ∧
      Value.AgreeOn (· = ⟨0, by decide⟩) ⟨.float, b⟩ ⟨.float, b'⟩ ∧
      b.toList = [.one, .one, ⟨0x40200000⟩, ⟨0x40200000⟩] ∧
      b'.lane ⟨0, by decide⟩ = Single.one ∧
      Single.isNaN (b'.lane ⟨2, by decide⟩) = true :=
  ⟨_, _, rfl, rfl, (@Expr.lane_of_agreeOn _ _ _ _ .double _ _ (.unary .dfdx (.var "x")) rfl rfl
    ⟨0, by decide⟩).2.2.2.1 (.var "x") rfl rfl (agreeOn_upperRow _ _ _ _ _ _), by decide +kernel,
    by decide +kernel, by decide +kernel⟩

end Script

end Wavefront
