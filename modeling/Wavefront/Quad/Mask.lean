import Wavefront.Quad.Basic
import Wavefront.Fault

/-!
# Four-lane masks

The unit has no predicates of its own: a mask is a quad in which every lane is all ones (true) or
all zeros (false). Reductions look at the sign bit of a lane and selection at all of its bits, so
the two agree only on such quads, and `QuadMask` carries the proof that it is one. Every operation
that makes a mask keeps the proof.
-/

namespace Wavefront

/-- All ones or all zeros. -/
def IsFilled (w : Word) : Prop := w = 0 ∨ w = BitVec.allOnes 32

theorem isFilled_fill (b : Bool) : IsFilled (fill b) := by
  cases b
  · exact .inl rfl
  · exact .inr rfl

theorem msb_fill (b : Bool) : (fill b).msb = b := by cases b <;> rfl

theorem IsFilled.and {x y : Word} (hx : IsFilled x) (hy : IsFilled y) : IsFilled (x &&& y) := by
  rcases hx with rfl | rfl <;> rcases hy with rfl | rfl <;> simp [IsFilled]

theorem IsFilled.or {x y : Word} (hx : IsFilled x) (hy : IsFilled y) : IsFilled (x ||| y) := by
  rcases hx with rfl | rfl <;> rcases hy with rfl | rfl <;> simp [IsFilled]

theorem IsFilled.xor {x y : Word} (hx : IsFilled x) (hy : IsFilled y) : IsFilled (x ^^^ y) := by
  rcases hx with rfl | rfl <;> rcases hy with rfl | rfl <;> simp [IsFilled]

theorem IsFilled.without {x y : Word} (hx : IsFilled x) (hy : IsFilled y) :
    IsFilled (~~~x &&& y) := by
  rcases hx with rfl | rfl <;> rcases hy with rfl | rfl <;> simp [IsFilled]

namespace Quad

/-- Every lane is all ones or all zeros. -/
def Filled (q : Quad) : Prop := ∀ i : Fin 4, IsFilled (q.get i)

theorem filled_splat {w : Word} (h : IsFilled w) : (splat w).Filled := by
  intro i
  rwa [get_splat]

theorem Filled.and {a b : Quad} (ha : a.Filled) (hb : b.Filled) : (and a b).Filled := by
  intro i
  rw [get_and]
  exact (ha i).and (hb i)

theorem Filled.or {a b : Quad} (ha : a.Filled) (hb : b.Filled) : (or a b).Filled := by
  intro i
  rw [get_or]
  exact (ha i).or (hb i)

theorem Filled.xor {a b : Quad} (ha : a.Filled) (hb : b.Filled) : (xor a b).Filled := by
  intro i
  rw [get_xor]
  exact (ha i).xor (hb i)

theorem Filled.without {a b : Quad} (ha : a.Filled) (hb : b.Filled) : (without a b).Filled := by
  intro i
  rw [get_without]
  exact (ha i).without (hb i)

theorem Filled.not {a : Quad} (ha : a.Filled) : (not a).Filled :=
  ha.xor (filled_splat (.inr rfl))

theorem Filled.blend {m a b : Quad} (hm : m.Filled) (ha : a.Filled) (hb : b.Filled) :
    (blend m a b).Filled :=
  (hm.and ha).or (hm.without hb)

theorem filled_compare (relation : Word → Word → Bool) (a b : Quad) :
    (compare relation a b).Filled := by
  intro i
  rw [get_compare]
  exact isFilled_fill _

/-- The collected sign bits by their places. -/
theorem testBit_signs (q : Quad) (i : Fin 4) : q.signs.testBit i = (q.get i).msb := by
  have h : ∀ (a b c d : Bool) (i : Fin 4),
      (a.toNat + 2 * b.toNat + 4 * c.toNat + 8 * d.toNat).testBit i = #v[a, b, c, d].get i := by
    decide
  refine (h _ _ _ _ i).trans ?_
  rcases i with ⟨_ | _ | _ | _ | i, hi⟩
  · rfl
  · rfl
  · rfl
  · rfl
  · omega

theorem filled_ofLanes (f : Fin 4 → Bool) : (ofLanes fun i => fill (f i)).Filled := by
  intro i
  rw [get_ofLanes]
  exact isFilled_fill _

end Quad

/-- A quad whose lanes are truth values. -/
structure QuadMask where
  /-- the lanes, all ones for true -/
  words : Quad
  /-- no lane is anything else than true or false -/
  filled : words.Filled

namespace QuadMask

/-! ## Lanes -/

/-- The same truth value in every lane. -/
def splat (b : Bool) : QuadMask := ⟨Quad.splat (fill b), Quad.filled_splat (isFilled_fill b)⟩

/-- The mask with the given lanes. -/
def ofFn (f : Fin 4 → Bool) : QuadMask :=
  ⟨Quad.ofLanes fun i => fill (f i), Quad.filled_ofLanes f⟩

/-- Bit `i` is set when lane `i` is true. -/
def bitmask (m : QuadMask) : Nat := m.words.signs

/-- The truth value of a lane: its bit of the bitmask. -/
def lane (m : QuadMask) (i : Nat) : Bool := m.bitmask.testBit i

/-! ## Reductions -/

/-- Some lane is true. -/
def any (m : QuadMask) : Bool := m.bitmask != 0

/-- Every lane is true. -/
def all (m : QuadMask) : Bool := m.bitmask == 15

/-! ## Logic -/

/-- Lanes true in both. -/
def and (a b : QuadMask) : QuadMask := ⟨Quad.and a.words b.words, a.filled.and b.filled⟩

/-- Lanes true in either. -/
def or (a b : QuadMask) : QuadMask := ⟨Quad.or a.words b.words, a.filled.or b.filled⟩

/-- Lanes true in exactly one. -/
def xor (a b : QuadMask) : QuadMask := ⟨Quad.xor a.words b.words, a.filled.xor b.filled⟩

/-- Lanes that are false. -/
def not (a : QuadMask) : QuadMask := ⟨Quad.not a.words, a.filled.not⟩

/-- Lanes that agree. -/
def eq (a b : QuadMask) : QuadMask := (a.xor b).not

/-- The lanes of `a` where `mask` is true and those of `b` elsewhere. -/
def select (mask a b : QuadMask) : QuadMask :=
  ⟨Quad.blend mask.words a.words b.words, mask.filled.blend a.filled b.filled⟩

/-- The lanes where the relation holds between the words. -/
def compare (relation : Word → Word → Bool) (a b : Quad) : QuadMask :=
  ⟨Quad.compare relation a b, Quad.filled_compare relation a b⟩

/-! ## The lane view -/

/-- A lane is true when its sign bit is set. -/
theorem lane_eq_msb (m : QuadMask) (i : Fin 4) : m.lane i = (m.words.get i).msb :=
  m.words.testBit_signs i

/-- The word of a lane is filled with its truth value. -/
theorem get_words (m : QuadMask) (i : Fin 4) : m.words.get i = fill (m.lane i) := by
  rw [lane_eq_msb]
  rcases m.filled i with h | h <;> rw [h] <;> rfl

/-- Masks with the same lanes are the same. -/
theorem ext_lane {a b : QuadMask} (h : ∀ i : Fin 4, a.lane i = b.lane i) : a = b := by
  have hw : a.words = b.words := Quad.ext_get fun i => by rw [get_words, get_words, h]
  cases a; cases b; cases hw; rfl

@[simp] theorem lane_splat (b : Bool) (i : Fin 4) : (splat b).lane i = b := by
  rw [lane_eq_msb, splat, Quad.get_splat, msb_fill]

@[simp] theorem lane_ofFn (f : Fin 4 → Bool) (i : Fin 4) : (ofFn f).lane i = f i := by
  rw [lane_eq_msb, ofFn, Quad.get_ofLanes, msb_fill]

@[simp] theorem lane_and (a b : QuadMask) (i : Fin 4) :
    (a.and b).lane i = (a.lane i && b.lane i) := by
  simp only [lane_eq_msb, and, Quad.get_and, BitVec.msb_and]

@[simp] theorem lane_or (a b : QuadMask) (i : Fin 4) :
    (a.or b).lane i = (a.lane i || b.lane i) := by
  simp only [lane_eq_msb, or, Quad.get_or, BitVec.msb_or]

@[simp] theorem lane_xor (a b : QuadMask) (i : Fin 4) :
    (a.xor b).lane i = (a.lane i ^^ b.lane i) := by
  simp only [lane_eq_msb, xor, Quad.get_xor, BitVec.msb_xor]

@[simp] theorem lane_not (a : QuadMask) (i : Fin 4) : a.not.lane i = !a.lane i := by
  rw [lane_eq_msb, lane_eq_msb, not, Quad.get_not, BitVec.msb_not]
  rfl

@[simp] theorem lane_eq (a b : QuadMask) (i : Fin 4) :
    (a.eq b).lane i = (a.lane i == b.lane i) := by
  rw [eq, lane_not, lane_xor]
  cases a.lane i <;> cases b.lane i <;> rfl

@[simp] theorem lane_compare (relation : Word → Word → Bool) (a b : Quad) (i : Fin 4) :
    (compare relation a b).lane i = relation (a.get i) (b.get i) := by
  rw [lane_eq_msb, compare, Quad.get_compare, msb_fill]

/-- A blend under a mask takes each lane from one side. -/
theorem get_blend (m : QuadMask) (a b : Quad) (i : Fin 4) :
    (Quad.blend m.words a b).get i = if m.lane i then a.get i else b.get i := by
  rw [Quad.blend, Quad.get_or, Quad.get_and, Quad.get_without, get_words]
  cases m.lane i
  · rw [show fill false = 0 from rfl, show ~~~(0 : Word) = BitVec.allOnes 32 from rfl,
      BitVec.allOnes_and]
    simp
  · rw [show fill true = BitVec.allOnes 32 from rfl, BitVec.allOnes_and]
    simp

@[simp] theorem lane_select (m a b : QuadMask) (i : Fin 4) :
    (select m a b).lane i = if m.lane i then a.lane i else b.lane i := by
  rw [lane_eq_msb, select, get_blend]
  cases m.lane i <;> simp [lane_eq_msb]

/-- The reduction by bitmask is the existence of a true lane. -/
theorem any_eq_true {m : QuadMask} : m.any = true ↔ ∃ i : Fin 4, m.lane i = true := by
  have h : ∀ a b c d : Bool, (a.toNat + 2 * b.toNat + 4 * c.toNat + 8 * d.toNat != 0) = true ↔
      ∃ i : Fin 4, (a.toNat + 2 * b.toNat + 4 * c.toNat + 8 * d.toNat).testBit i = true := by
    decide
  exact h _ _ _ _

/-- The reduction by bitmask is the truth of every lane. -/
theorem all_eq_true {m : QuadMask} : m.all = true ↔ ∀ i : Fin 4, m.lane i = true := by
  have h : ∀ a b c d : Bool, (a.toNat + 2 * b.toNat + 4 * c.toNat + 8 * d.toNat == 15) = true ↔
      ∀ i : Fin 4, (a.toNat + 2 * b.toNat + 4 * c.toNat + 8 * d.toNat).testBit i = true := by
    decide
  exact h _ _ _ _

end QuadMask

end Wavefront
