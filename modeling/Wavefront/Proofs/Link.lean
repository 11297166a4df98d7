import Wavefront.Proofs.Alike
import Wavefront.Proofs.BatchOps

/-!
# Links between two computations

Two computations on batches run side by side: on two backends, or on one backend with two inputs. A
`Link` says which lanes of the one are compared with which lanes of the other, and how closely.
Batches are *linked* when the compared lanes are the same, and the operations of batches keep that.

* Most operations treat every lane alone (`Batches.mapRegs`, `Batches.zipRegs`), and what is
  composed of them follows.
* Rounding halves to even looks at all lanes at once before it decides how to round, but both ways
  round every lane the same (`Batch.roundEven_eq`).
* Differences across a tile read the other lanes of a register; a link has to compare them too.
* Functions of the library are functions of the lane. That is enough where a computation is compared
  with itself; across backends the laws of the library are needed (`Trusts`).

A `Dialect` says which operations the computations may use, and a link is one for a dialect.
-/

namespace Wavefront

/-- What an expression may use. -/
structure Dialect where
  /-- the kinds that values may have -/
  kinds : Kind → Bool
  /-- differences across the tile of a register -/
  derivatives : Bool
  /-- the patterns of floats, as words -/
  patterns : Bool
  /-- registers by number -/
  registers : Bool
  /-- single lanes and reductions, spread over all lanes -/
  probes : Bool

/-- A comparison of two computations, each on a backend with a number of registers. -/
structure Link (B : Backend) (n : Nat) (B' : Backend) (n' : Nat) where
  /-- what the computations may use -/
  dialect : Dialect
  /-- the lanes that are compared -/
  lanes : Fin (Batch.width B n) → Fin (Batch.width B' n') → Prop
  aligned : ∀ {i i'}, lanes i i' → i.val = i'.val
  /-- floats are compared by their patterns; otherwise NaNs count as the same -/
  strict : Bool
  twin : strict = true → B = B' ∧ n = n'
  /-- comparisons answer truth values -/
  bool : dialect.kinds .bool = true
  patterns : dialect.patterns = true → strict = true
  registers : dialect.registers = true → strict = true
  /-- a probe shows every lane everywhere -/
  probes : dialect.probes = true →
    Batch.width B n = Batch.width B' n' ∧ ∀ i i', i.val = i'.val → lanes i i'
  /-- a difference shows every lane of a register there -/
  derivatives : dialect.derivatives = true → strict = true ∧
    ∀ {i i' j j'}, lanes i i' → j.val / B.lanes = i.val / B.lanes → j.val = j'.val → lanes j j'

namespace Link

variable {B B' : Backend} {n n' : Nat} {L : Link B n B' n'}
variable {k l m : Kind} {t : Number} {s : Signedness} {d : Denormals}

/-- What the link asks of two lanes that it compares. -/
def Same (L : Link B n B' n') (x y : k.Lane) : Prop := if L.strict then x = y else Lane.Alike x y

/-- The lanes that the link compares are the same. -/
def Batches (L : Link B n B' n') (b : Batch B k n) (b' : Batch B' k n') : Prop :=
  ∀ i i', L.lanes i i' → L.Same (b.lane i) (b'.lane i')

/-- All lanes are compared. -/
def Total (L : Link B n B' n') : Prop :=
  Batch.width B n = Batch.width B' n' ∧ ∀ i i', i.val = i'.val → L.lanes i i'

/-- A library that both computations may call. On one machine it may be any, otherwise its laws are
relied on. -/
def Trusts (L : Link B n B' n') (lib : MathLibrary) : Prop := L.strict = false → lib.Lawful

/-- The libraries that the two computations are linked with. Without floats none is called. -/
def Libraries (L : Link B n B' n') (lib lib' : MathLibrary) : Prop :=
  L.dialect.kinds .float = true → lib = lib' ∧ L.Trusts lib

/-! ## Lanes -/

theorem Same.alike {x y : k.Lane} (h : L.Same x y) : Lane.Alike x y := by
  rw [Same] at h
  split at h
  · exact .of_eq h
  · exact h

theorem same_of_eq {x y : k.Lane} (h : x = y) : L.Same x y := by
  rw [Same]
  split
  · exact h
  · exact .of_eq h

theorem Same.eq_of_strict (hs : L.strict = true) {x y : k.Lane} (h : L.Same x y) : x = y := by
  rwa [Same, if_pos hs] at h

/-- Lane functions that do not tell NaNs apart, also across backends, keep lanes the same. Where
patterns are compared, any lane function does. -/
theorem Same.map {g : Backend → k.Lane → l.Lane}
    (hg : L.strict = false → ∀ B B' x x', Lane.Alike x x' → Lane.Alike (g B x) (g B' x'))
    {x x' : k.Lane} (h : L.Same x x') : L.Same (g B x) (g B' x') := by
  by_cases hs : L.strict = true
  · obtain ⟨rfl, rfl⟩ := L.twin hs
    exact same_of_eq (congrArg _ (h.eq_of_strict hs))
  · rw [Same, if_neg hs]
    exact hg (Bool.eq_false_iff.2 hs) _ _ _ _ h.alike

theorem Same.map₂ {g : k.Lane → l.Lane → m.Lane}
    (hg : L.strict = false →
      ∀ x x' y y', Lane.Alike x x' → Lane.Alike y y' → Lane.Alike (g x y) (g x' y'))
    {x x' : k.Lane} {y y' : l.Lane} (hx : L.Same x x') (hy : L.Same y y') :
    L.Same (g x y) (g x' y') := by
  by_cases hs : L.strict = true
  · exact same_of_eq (by rw [hx.eq_of_strict hs, hy.eq_of_strict hs])
  · rw [Same, if_neg hs]
    exact hg (Bool.eq_false_iff.2 hs) _ _ _ _ hx.alike hy.alike

/-! ## Operations that treat every lane alone -/

theorem batches_splat (v : k.Lane) : L.Batches (Batch.splat v) (Batch.splat v) := by
  intro i i' _
  rw [Batch.lane_splat, Batch.lane_splat]
  exact same_of_eq rfl

theorem batches_zeros : L.Batches (Batch.zeros : Batch B k n) Batch.zeros := batches_splat _

theorem Batches.mapRegs {f : ∀ B, Reg B k → Reg B l} {g : Backend → k.Lane → l.Lane}
    (hf : ∀ B (r : Reg B k) i, (f B r).lane i = g B (r.lane i))
    (hg : L.strict = false → ∀ B B' x x', Lane.Alike x x' → Lane.Alike (g B x) (g B' x'))
    {b : Batch B k n} {b' : Batch B' k n'} (h : L.Batches b b') :
    L.Batches (b.mapRegs (f B)) (b'.mapRegs (f B')) := by
  intro i i' hi
  rw [Batch.lane_mapRegs, Batch.lane_mapRegs, hf, hf]
  exact (h i i' hi).map hg

theorem Batches.zipRegs {f : ∀ B, Reg B k → Reg B l → Reg B m} {g : k.Lane → l.Lane → m.Lane}
    (hf : ∀ B (r : Reg B k) (r₁ : Reg B l) i, (f B r r₁).lane i = g (r.lane i) (r₁.lane i))
    (hg : L.strict = false →
      ∀ x x' y y', Lane.Alike x x' → Lane.Alike y y' → Lane.Alike (g x y) (g x' y'))
    {a : Batch B k n} {a' : Batch B' k n'} {b : Batch B l n} {b' : Batch B' l n'}
    (ha : L.Batches a a') (hb : L.Batches b b') :
    L.Batches (Batch.zipRegs (f B) a b) (Batch.zipRegs (f B') a' b') := by
  intro i i' hi
  rw [Batch.lane_zipRegs, Batch.lane_zipRegs, hf, hf]
  exact (ha i i' hi).map₂ hg (hb i i' hi)

theorem Batches.assignMasked {b source : Batch B k n} {b' source' : Batch B' k n'}
    {mask : Mask B n} {mask' : Mask B' n'} (hb : L.Batches b b') (hm : L.Batches mask mask')
    (hs : L.Batches source source') :
    L.Batches (b.assignMasked mask source) (b'.assignMasked mask' source') := by
  intro i i' hi
  rw [Batch.lane_assignMasked, Batch.lane_assignMasked,
    (hm i i' hi).alike.eq_of_ne_float (by decide)]
  split
  · exact hs i i' hi
  · exact hb i i' hi

/-! ## Masks -/

section Masks

variable {a b : Mask B n} {a' b' : Mask B' n'}

/-- An operation on truth values. -/
theorem Batches.logic {f : ∀ B, Reg B .bool → Reg B .bool → Reg B .bool} {g : Bool → Bool → Bool}
    (hf : ∀ B (r r₁ : Reg B .bool) i, (f B r r₁).lane i = g (r.lane i) (r₁.lane i))
    (ha : L.Batches a a') (hb : L.Batches b b') :
    L.Batches (Batch.zipRegs (f B) a b) (Batch.zipRegs (f B') a' b') :=
  ha.zipRegs hf (fun _ _ _ _ _ => .congr₂_ne_float (k := .bool) (l := .bool) (by decide) g) hb

theorem Batches.maskAnd (ha : L.Batches a a') (hb : L.Batches b b') :
    L.Batches (a &&& b) (a' &&& b') := ha.logic (fun _ => Reg.lane_maskAnd) hb

theorem Batches.maskOr (ha : L.Batches a a') (hb : L.Batches b b') :
    L.Batches (a ||| b) (a' ||| b') := ha.logic (fun _ => Reg.lane_maskOr) hb

theorem Batches.maskXor (ha : L.Batches a a') (hb : L.Batches b b') :
    L.Batches (a ^^^ b) (a' ^^^ b') := ha.logic (fun _ => Reg.lane_maskXor) hb

theorem Batches.maskEq (ha : L.Batches a a') (hb : L.Batches b b') :
    L.Batches (Mask.eq a b) (Mask.eq a' b') :=
  ha.logic (g := fun x y => x == y) (fun _ => Reg.lane_eq .keep) hb

theorem Batches.maskNot (ha : L.Batches a a') : L.Batches (~~~a) (~~~a') :=
  ha.mapRegs (g := fun _ x => Bool.not x) (fun _ => Reg.lane_maskNot)
    fun _ _ _ _ _ => .congr_ne_float (k := .bool) (l := .bool) (by decide) Bool.not

end Masks

/-! ## Numbers -/

section Numbers

variable {x y z : Batch B (.number t) n} {x' y' z' : Batch B' (.number t) n'}

theorem Batches.cmpEq (hx : L.Batches x x') (hy : L.Batches y y') :
    L.Batches (x.cmpEq d y) (x'.cmpEq d y') :=
  hx.zipRegs (m := .bool) (g := Lane.eq d) (fun _ => Reg.lane_eq d)
    (fun _ _ _ _ _ => .eq) hy

theorem Batches.cmpNe (hx : L.Batches x x') (hy : L.Batches y y') :
    L.Batches (x.cmpNe d y) (x'.cmpNe d y') :=
  hx.zipRegs (m := .bool) (g := fun x y => !Lane.eq d x y) (fun _ => Reg.lane_ne d)
    (fun _ _ _ _ _ h h' => congrArg _ (h.eq h')) hy

theorem Batches.cmpLt (hx : L.Batches x x') (hy : L.Batches y y') :
    L.Batches (x.cmpLt d y) (x'.cmpLt d y') :=
  hx.zipRegs (m := .bool) (g := Lane.lt d) (fun _ => Reg.lane_lt d)
    (fun _ _ _ _ _ => .lt) hy

theorem Batches.cmpLe (hx : L.Batches x x') (hy : L.Batches y y') :
    L.Batches (x.cmpLe d y) (x'.cmpLe d y') :=
  hx.zipRegs (m := .bool) (g := Lane.le d) (fun _ => Reg.lane_le d)
    (fun _ _ _ _ _ => .le) hy

theorem Batches.cmpGt (hx : L.Batches x x') (hy : L.Batches y y') :
    L.Batches (x.cmpGt d y) (x'.cmpGt d y') :=
  hx.zipRegs (m := .bool) (g := fun x y => Lane.lt d y x) (fun _ => Reg.lane_gt d)
    (fun _ _ _ _ _ h h' => h'.lt h) hy

theorem Batches.cmpGe (hx : L.Batches x x') (hy : L.Batches y y') :
    L.Batches (x.cmpGe d y) (x'.cmpGe d y') :=
  hx.zipRegs (m := .bool) (g := fun x y => Lane.le d y x) (fun _ => Reg.lane_ge d)
    (fun _ _ _ _ _ h h' => h'.le h) hy

theorem Batches.add (hx : L.Batches x x') (hy : L.Batches y y') :
    L.Batches (x.add d y) (x'.add d y') :=
  hx.zipRegs (g := Lane.add d) (fun _ => Reg.lane_add d) (fun _ _ _ _ _ => .add) hy

theorem Batches.sub (hx : L.Batches x x') (hy : L.Batches y y') :
    L.Batches (x.sub d y) (x'.sub d y') :=
  hx.zipRegs (g := Lane.sub d) (fun _ => Reg.lane_sub d) (fun _ _ _ _ _ => .sub) hy

theorem Batches.mul (hx : L.Batches x x') (hy : L.Batches y y') :
    L.Batches (x.mul d y) (x'.mul d y') :=
  hx.zipRegs (g := Lane.mul d) (fun _ => Reg.lane_mul d) (fun _ _ _ _ _ => .mul) hy

theorem Batches.min (hx : L.Batches x x') (hy : L.Batches y y') :
    L.Batches (x.min y) (x'.min y') :=
  hx.zipRegs (g := Lane.min) (fun _ => Reg.lane_min) (fun _ _ _ _ _ => .min) hy

theorem Batches.max (hx : L.Batches x x') (hy : L.Batches y y') :
    L.Batches (x.max y) (x'.max y') :=
  hx.zipRegs (g := Lane.max) (fun _ => Reg.lane_max) (fun _ _ _ _ _ => .max) hy

theorem Batches.clamp (hx : L.Batches x x') (hy : L.Batches y y') (hz : L.Batches z z') :
    L.Batches (x.clamp y z) (x'.clamp y' z') := (hx.max hy).min hz

theorem Batches.cast {b : Batch B k n} {b' : Batch B' k n'} (target : Kind) (h : L.Batches b b') :
    L.Batches (b.cast target) (b'.cast target) :=
  h.mapRegs (g := fun _ => Lane.cast k target) (fun _ => Reg.lane_cast target)
    fun _ _ _ _ _ => .cast target

end Numbers

/-! ## Integers -/

section Integers

variable {x y : Batch B (.number (.integer s)) n} {x' y' : Batch B' (.number (.integer s)) n'}

/-- An operation on words. -/
theorem Batches.words {f : ∀ B, Reg B (.number (.integer s)) → Reg B (.number (.integer s)) →
      Reg B (.number (.integer s))} {g : Word → Word → Word}
    (hf : ∀ B (r r₁ : Reg B (.number (.integer s))) i, (f B r r₁).lane i = g (r.lane i) (r₁.lane i))
    (hx : L.Batches x x') (hy : L.Batches y y') :
    L.Batches (Batch.zipRegs (f B) x y) (Batch.zipRegs (f B') x' y') :=
  hx.zipRegs hf (fun _ _ _ _ _ => .congr₂_ne_float (k := Kind.number (.integer s))
    (l := Kind.number (.integer s)) (by simp) g) hy

theorem Batches.and (hx : L.Batches x x') (hy : L.Batches y y') :
    L.Batches (x &&& y) (x' &&& y') := hx.words (fun _ => Reg.lane_and) hy

theorem Batches.or (hx : L.Batches x x') (hy : L.Batches y y') :
    L.Batches (x ||| y) (x' ||| y') := hx.words (fun _ => Reg.lane_or) hy

theorem Batches.xor (hx : L.Batches x x') (hy : L.Batches y y') :
    L.Batches (x ^^^ y) (x' ^^^ y') := hx.words (fun _ => Reg.lane_xor) hy

/-- An operation on one word. -/
theorem Batches.word {f : ∀ B, Reg B (.number (.integer s)) → Reg B (.number (.integer s))}
    {g : Word → Word}
    (hf : ∀ B (r : Reg B (.number (.integer s))) i, (f B r).lane i = g (r.lane i))
    (hx : L.Batches x x') : L.Batches (x.mapRegs (f B)) (x'.mapRegs (f B')) :=
  hx.mapRegs (g := fun _ => g) hf fun _ _ _ _ _ =>
    .congr_ne_float (k := Kind.number (.integer s)) (l := Kind.number (.integer s)) (by simp) g

theorem Batches.not (hx : L.Batches x x') : L.Batches (~~~x) (~~~x') :=
  hx.word fun _ => Reg.lane_not

theorem Batches.shiftLeft (count : Word) (hx : L.Batches x x') :
    L.Batches (x.shiftLeft count) (x'.shiftLeft count) :=
  hx.word (f := fun _ r => Reg.shiftLeft r count) (g := fun x => Lane.shiftLeft x count)
    fun _ r i => Reg.lane_shiftLeft r count i

theorem Batches.shiftRight (count : Word) (hx : L.Batches x x') :
    L.Batches (x.shiftRight count) (x'.shiftRight count) :=
  hx.word (f := fun _ r => Reg.shiftRight r count) (g := fun x => Lane.shiftRight s x count)
    fun _ r i => Reg.lane_shiftRight r count i

theorem Batches.ofBits (hx : L.Batches x x') : L.Batches x.ofBits x'.ofBits :=
  hx.mapRegs (f := fun _ => Reg.ofBits) (g := fun _ w => Single.mk w) (fun _ => Reg.lane_ofBits)
    fun _ _ _ _ _ =>
      .congr_ne_float (k := Kind.number (.integer s)) (l := .float) (by simp) Single.mk

end Integers

/-! ## Floats -/

section Floats

variable {x y z : Batch B .float n} {x' y' z' : Batch B' .float n'}

theorem Batches.neg (h : L.Batches x x') : L.Batches (-x) (-x') :=
  h.mapRegs (g := fun _ => Single.neg) (fun _ => Reg.lane_neg) fun _ _ _ _ _ => .neg

theorem Batches.quotient (hx : L.Batches x x') (hy : L.Batches y y') :
    L.Batches (x.quotient d y) (x'.quotient d y') :=
  hx.zipRegs (g := Single.div d) (fun _ => Reg.lane_div d) (fun _ _ _ _ _ => .div) hy

/-! ## Functions of the library -/

section Library

variable {lib : MathLibrary} (hlib : L.Trusts lib)
include hlib

theorem Batches.abs (h : L.Batches x x') : L.Batches (x.abs lib) (x'.abs lib) :=
  h.mapRegs (g := fun B => Lane.absLane lib B) (fun _ => Reg.lane_abs lib)
    fun hs _ _ _ _ h => h.absLane (hlib hs).toExact

theorem Batches.sqrt (h : L.Batches x x') : L.Batches (x.sqrt lib) (x'.sqrt lib) :=
  h.mapRegs (g := fun B => Lane.sqrtLane lib B) (fun _ => Reg.lane_sqrt lib)
    fun hs _ _ _ _ h => h.sqrtLane (hlib hs)

theorem Batches.floor (h : L.Batches x x') : L.Batches (x.floor lib) (x'.floor lib) :=
  h.mapRegs (g := fun B => Lane.floorLane lib B) (fun _ => Reg.lane_floor lib)
    fun hs _ _ _ _ h => h.floorLane (hlib hs).toExact

theorem Batches.ceil (h : L.Batches x x') : L.Batches (x.ceil lib) (x'.ceil lib) :=
  h.mapRegs (g := fun B => Lane.ceilLane lib B) (fun _ => Reg.lane_ceil lib)
    fun hs _ _ _ _ h => h.ceilLane (hlib hs).toExact

theorem Batches.trunc (h : L.Batches x x') : L.Batches (x.trunc lib) (x'.trunc lib) :=
  h.mapRegs (g := fun B => Lane.truncLane lib B) (fun _ => Reg.lane_trunc lib)
    fun hs _ _ _ _ h => h.truncLane (hlib hs).toExact

theorem Batches.round (h : L.Batches x x') : L.Batches (x.round lib) (x'.round lib) :=
  h.mapRegs (g := fun B => Lane.roundLane lib B) (fun _ => Reg.lane_round lib)
    fun hs _ _ _ _ h => h.roundLane (hlib hs).toExact

theorem Batches.elementary (f : Elementary) (h : L.Batches x x') :
    L.Batches (x.elementary lib f) (x'.elementary lib f) :=
  h.mapRegs (f := fun _ => Reg.map (lib.elementary f)) (g := fun _ => lib.elementary f)
    (fun _ => Reg.lane_map _) fun hs _ _ _ _ h => h.elementary (hlib hs) f

theorem Batches.atan2 (hx : L.Batches x x') (hy : L.Batches y y') :
    L.Batches (x.atan2 lib y) (x'.atan2 lib y') :=
  hx.zipRegs (f := fun _ => Reg.zip lib.atan2) (g := lib.atan2) (fun _ => Reg.lane_zip _)
    (fun hs _ _ _ _ hx hy => hx.atan2 hy (hlib hs)) hy

theorem Batches.pow (hx : L.Batches x x') (hy : L.Batches y y') :
    L.Batches (x.pow lib y) (x'.pow lib y') :=
  hx.zipRegs (f := fun _ => Reg.zip lib.pow) (g := lib.pow) (fun _ => Reg.lane_zip _)
    (fun hs _ _ _ _ hx hy => hx.pow hy (hlib hs)) hy

end Library

/-! ## Operators: ordinary arithmetic -/

theorem batches_single (v : Single) :
    L.Batches (Batch.splat v : Batch B .float n) (Batch.splat v : Batch B' .float n') :=
  batches_splat (k := .float) v

theorem Batches.plus (hx : L.Batches x x') (hy : L.Batches y y') : L.Batches (x + y) (x' + y') :=
  hx.add hy

theorem Batches.minus (hx : L.Batches x x') (hy : L.Batches y y') : L.Batches (x - y) (x' - y') :=
  hx.sub hy

theorem Batches.times (hx : L.Batches x x') (hy : L.Batches y y') : L.Batches (x * y) (x' * y') :=
  hx.mul hy

theorem Batches.over (hx : L.Batches x x') (hy : L.Batches y y') : L.Batches (x / y) (x' / y') :=
  hx.quotient hy

/-! ## Rounding and remainders -/

section Remainders

variable {lib : MathLibrary} (hlib : L.Trusts lib)
include hlib

theorem Batches.fract (h : L.Batches x x') : L.Batches (x.fract lib) (x'.fract lib) :=
  h.minus (h.floor hlib)

theorem Batches.ties (h : L.Batches x x') : L.Batches (x.ties lib) (x'.ties lib) :=
  (h.fract hlib).cmpEq (batches_single _)

theorem Batches.tiesToEven (h : L.Batches x x') :
    L.Batches (x.tiesToEven lib) (x'.tiesToEven lib) := by
  have hwhole := h.trunc hlib
  have heven := (((hwhole.times (batches_single .half)).trunc hlib).times
    (batches_single .two)).cmpEq (d := .keep) hwhole
  have hstep := (batches_single .one).assignMasked (h.cmpLe (d := .keep) batches_zeros)
    (batches_single Single.one.neg)
  exact hwhole.assignMasked heven.maskNot (hwhole.plus hstep)

theorem Batches.roundEven (h : L.Batches x x') :
    L.Batches (x.roundEven lib) (x'.roundEven lib) := by
  rw [Batch.roundEven_eq, Batch.roundEven_eq]
  exact (h.round hlib).assignMasked (h.ties hlib) (h.tiesToEven hlib)

theorem Batches.isInfinite (h : L.Batches x x') :
    L.Batches (x.isInfinite lib) (x'.isInfinite lib) := (h.abs hlib).cmpEq (batches_single _)

theorem Batches.modfFract (h : L.Batches x x') :
    L.Batches (x.modfFract lib) (x'.modfFract lib) :=
  (h.minus (h.trunc hlib)).assignMasked (h.isInfinite hlib) batches_zeros

theorem Batches.modulo (hx : L.Batches x x') (hy : L.Batches y y') :
    L.Batches (x.modulo lib y) (x'.modulo lib y') :=
  hx.minus (hy.times ((hx.over hy).floor hlib))

end Remainders

/-! ## Built-in functions -/

theorem Batches.isNaN (h : L.Batches x x') : L.Batches x.isNaN x'.isNaN :=
  h.cmpNe (d := .keep) h

theorem Batches.sign (h : L.Batches x x') : L.Batches x.sign x'.sign :=
  ((h.cmpGt batches_zeros).cast .float).minus ((h.cmpLt batches_zeros).cast .float)

theorem Batches.step (hx : L.Batches x x') (hy : L.Batches y y') :
    L.Batches (x.step y) (x'.step y') := (hy.cmpGt hx).cast .float

theorem Batches.mix (hx : L.Batches x x') (hy : L.Batches y y') (hz : L.Batches z z') :
    L.Batches (x.mix y z) (x'.mix y' z') :=
  (hx.times ((batches_single _).minus hz)).plus (hy.times hz)

theorem Batches.ramp (hx : L.Batches x x') (hy : L.Batches y y') (hz : L.Batches z z') :
    L.Batches (x.ramp y z) (x'.ramp y' z') :=
  ((hz.minus hx).over (hy.minus hx)).clamp batches_zeros (batches_single _)

theorem Batches.smoothstep (hx : L.Batches x x') (hy : L.Batches y y') (hz : L.Batches z z') :
    L.Batches (x.smoothstep y z) (x'.smoothstep y' z') := by
  have ht := hx.ramp hy hz
  exact (ht.times ht).times ((batches_single _).minus ((batches_single _).times ht))

theorem Batches.distance {lib : MathLibrary} (hlib : L.Trusts lib) (hx : L.Batches x x')
    (hy : L.Batches y y') : L.Batches (x.distance lib y) (x'.distance lib y') :=
  (hx.minus hy).abs hlib

theorem Batches.dot (hx : L.Batches x x') (hy : L.Batches y y') :
    L.Batches (x.dot y) (x'.dot y') := hx.times hy

theorem Batches.normalize (h : L.Batches x x') : L.Batches x.normalize x'.normalize :=
  ((batches_zeros.step h).times (batches_single _)).minus (batches_single _)

theorem Batches.faceforward (hx : L.Batches x x') (hy : L.Batches y y') (hz : L.Batches z z') :
    L.Batches (x.faceforward y z) (x'.faceforward y' z') :=
  hx.neg.assignMasked ((hz.dot hy).cmpLt batches_zeros) hx

theorem Batches.reflect (hx : L.Batches x x') (hy : L.Batches y y') :
    L.Batches (x.reflect y) (x'.reflect y') :=
  hx.minus (((batches_single _).times (hy.dot hx)).times hy)

theorem Batches.refract {lib : MathLibrary} (hlib : L.Trusts lib) (hx : L.Batches x x')
    (hy : L.Batches y y') (hz : L.Batches z z') :
    L.Batches (x.refract lib y z) (x'.refract lib y' z') := by
  have hd := hy.dot hx
  have hk := (batches_single .one).minus
    ((hz.times hz).times ((batches_single .one).minus (hd.times hd)))
  have hrefracted := (hz.times hx).minus (((hz.times hd).plus (hk.sqrt hlib)).times hy)
  exact hrefracted.assignMasked (hk.cmpLt batches_zeros) batches_zeros

theorem Batches.radians (h : L.Batches x x') : L.Batches x.radians x'.radians :=
  h.times (batches_single _)

theorem Batches.degrees (h : L.Batches x x') : L.Batches x.degrees x'.degrees :=
  h.times (batches_single _)

theorem Batches.inverseSqrt {lib : MathLibrary} (hlib : L.Trusts lib) (h : L.Batches x x') :
    L.Batches (x.inverseSqrt lib) (x'.inverseSqrt lib) := (batches_single _).over (h.sqrt hlib)

end Floats

/-! ## Built-in functions of signed words -/

section Signed

variable {x : Batch B .int n} {x' : Batch B' .int n'}

theorem Batches.wordNeg (h : L.Batches x x') : L.Batches (-x) (-x') := batches_zeros.sub h

theorem Batches.wordAbs (h : L.Batches x x') : L.Batches x.wordAbs x'.wordAbs :=
  h.wordNeg.assignMasked (h.cmpGe batches_zeros) h

theorem Batches.wordSign (h : L.Batches x x') : L.Batches x.wordSign x'.wordSign :=
  ((h.cmpGt batches_zeros).cast .int).sub ((h.cmpLt batches_zeros).cast .int)

end Signed

/-! ## Operations that look further -/

/-- On one machine the patterns of floats are the same words. -/
theorem Batches.toBits {x : Batch B .float n} {x' : Batch B' .float n'} (hs : L.strict = true)
    (h : L.Batches x x') : L.Batches (x.toBits s) (x'.toBits s) := by
  intro i i' hi
  refine same_of_eq ?_
  refine (Batch.lane_mapRegs _ _ _).trans (Eq.trans ?_ (Batch.lane_mapRegs _ _ _).symm)
  rw [Reg.lane_toBits, Reg.lane_toBits]
  exact congrArg Single.bits ((h i i' hi).eq_of_strict hs)

/-- On one machine a link that compares all lanes of a register keeps what is done to the register
as a whole. -/
theorem Batches.mapRegs_whole {f : ∀ B, Reg B k → Reg B l} {b : Batch B k n} {b' : Batch B' k n'}
    (hd : L.dialect.derivatives = true) (h : L.Batches b b') :
    L.Batches (b.mapRegs (f B)) (b'.mapRegs (f B')) := by
  obtain ⟨hs, hclosed⟩ := L.derivatives hd
  obtain ⟨rfl, rfl⟩ := L.twin hs
  intro i i' hi
  obtain rfl : i = i' := Fin.ext (L.aligned hi)
  have hreg : b.regs.get (Batch.registerOf i) = b'.regs.get (Batch.registerOf i) := by
    refine Reg.ext_lane fun j => ?_
    rw [← Batch.lane_laneAt, ← Batch.lane_laneAt]
    refine (h _ _ (hclosed hi ?_ rfl)).eq_of_strict hs
    exact congrArg Fin.val (Batch.registerOf_laneAt (Batch.registerOf i) j)
  rw [Batch.lane_mapRegs, Batch.lane_mapRegs, hreg]
  exact same_of_eq rfl

section Derivatives

variable {x : Batch B .float n} {x' : Batch B' .float n'}

theorem Batches.dfdx (hd : L.dialect.derivatives = true) (h : L.Batches x x') :
    L.Batches x.dfdx x'.dfdx := h.mapRegs_whole (f := fun _ => Reg.acrossColumns) hd

theorem Batches.dfdy (hd : L.dialect.derivatives = true) (h : L.Batches x x') :
    L.Batches x.dfdy x'.dfdy := h.mapRegs_whole (f := fun _ => Reg.acrossRows) hd

theorem Batches.fwidth {lib : MathLibrary} (hlib : L.Trusts lib)
    (hd : L.dialect.derivatives = true) (h : L.Batches x x') :
    L.Batches (x.fwidth lib) (x'.fwidth lib) := ((h.dfdx hd).abs hlib).plus ((h.dfdy hd).abs hlib)

end Derivatives

/-! ## Links that compare all lanes -/

theorem ofFn_eq_ofFn {α : Type} {a b : Nat} (hab : a = b) {f : Fin a → α} {g : Fin b → α}
    (h : ∀ i j, i.val = j.val → f i = g j) : List.ofFn f = List.ofFn g := by
  subst hab
  exact congrArg List.ofFn (funext fun i => h i i rfl)

theorem Total.toList_eq (hL : L.Total) (hk : k ≠ .float) {b : Batch B k n} {b' : Batch B' k n'}
    (h : L.Batches b b') : b.toList = b'.toList := by
  rw [Batch.toList_eq_ofFn, Batch.toList_eq_ofFn]
  exact ofFn_eq_ofFn hL.1 fun i i' hi => (h i i' (hL.2 i i' hi)).alike.eq_of_ne_float hk

section Reductions

variable {m : Mask B n} {m' : Mask B' n'}

theorem Total.any_eq (hL : L.Total) (h : L.Batches m m') : m.any = m'.any := by
  rw [Mask.any_eq_any_toList, Mask.any_eq_any_toList, hL.toList_eq (by decide) h]

theorem Total.all_eq (hL : L.Total) (h : L.Batches m m') : m.all = m'.all := by
  rw [Mask.all_eq_all_toList, Mask.all_eq_all_toList, hL.toList_eq (by decide) h]

theorem Total.count_eq (hL : L.Total) (h : L.Batches m m') : m.count = m'.count := by
  rw [Mask.count_eq_countP, Mask.count_eq_countP, hL.toList_eq (by decide) h]

end Reductions

/-- Equality of batches is the equality of all pairs of lanes. -/
theorem Total.equal_eq (hL : L.Total) {a b : Batch B k n} {a' b' : Batch B' k n'}
    (ha : L.Batches a a') (hb : L.Batches b b') : a.equal b = a'.equal b' := by
  have h := ofFn_eq_ofFn hL.1 (f := fun i => Lane.eq .keep (a.lane i) (b.lane i))
    (g := fun i => Lane.eq .keep (a'.lane i) (b'.lane i)) fun i i' hi =>
      (ha i i' (hL.2 i i' hi)).alike.eq (hb i i' (hL.2 i i' hi)).alike
  have hall : ∀ {w : Nat} (f : Fin w → Bool), (List.finRange w).all f = (List.ofFn f).all id := by
    intro w f
    rw [show List.ofFn f = (List.finRange w).map f from List.map_ofFn.symm, List.all_map]
    rfl
  rw [Batch.equal, Batch.equal, hall, hall, h]

end Link

end Wavefront
