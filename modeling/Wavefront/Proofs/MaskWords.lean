import Wavefront.Script.Expr
import Wavefront.Proofs.BatchOps

/-!
# The words of masks

On the four-lane unit a mask is four words. A reduction looks at one bit of each, the sign, but a
choice between registers and a cast to numbers let all 32 bits through. The unit keeps nobody from
making a word with some bits set, and such a word is true to the one and a mixture of both choices
to the other: the two agree exactly on filled words (`filled_iff_blend`).

A `MaskTerm` is a way to come by a mask. It is carried out twice:

* by `run`, with the operations of registers, whose masks hold a proof that they are filled;
* by `words`, with the instructions of the unit alone, on plain quads. That these are filled is an
  induction on the term, with one law for each instruction (`filled_of_words`).

Both come to the same words (`words_eq`). So one truth value for each lane is behind all that is
read from the masks of a batch (`Mask.ReadAs`), and it may be taken from any bit of the lane or from
all.

Main statement: `masks_canonical`.
-/

namespace Wavefront

open Script (Comparison)

/-! ## One bit and all bits -/

/-- A filled word repeats its sign. -/
theorem IsFilled.eq_fill {w : Word} (h : IsFilled w) : w = fill w.msb := by
  rcases h with rfl | rfl <;> rfl

theorem not_fill (b : Bool) : ~~~fill b = fill (!b) := by cases b <;> rfl

/-- A word lets one of two words through, as its sign says, exactly if it is filled. -/
theorem isFilled_iff_selects {w : Word} :
    IsFilled w ↔ ∀ a b : Word, (w &&& a) ||| (~~~w &&& b) = if w.msb then a else b := by
  constructor
  · intro h a b
    rw [h.eq_fill, not_fill, Quad.fill_and, Quad.fill_and, msb_fill]
    cases w.msb with
    | false => exact BitVec.zero_or
    | true => exact BitVec.or_zero
  · intro h
    -- all ones come through where the word has ones
    have hw : w = if w.msb then BitVec.allOnes 32 else 0 := by
      have hones := h (BitVec.allOnes 32) 0
      rwa [BitVec.and_allOnes, show ~~~w &&& 0 = 0 from BitVec.and_zero,
        show w ||| 0 = w from BitVec.or_zero] at hones
    rw [hw]
    exact isFilled_fill w.msb

/-- A word with nothing but its sign set lets one bit of the first word through and the rest of the
second. -/
example : ((0x80000000 : Word) &&& 0xffffffff) ||| (~~~0x80000000 &&& 0x12345678) = 0x92345678 := by
  decide

namespace Quad

/-- The sign bits of a quad choose like its words exactly if it is filled. -/
theorem filled_iff_blend {q : Quad} :
    q.Filled ↔ ∀ (a b : Quad) (i : Fin 4),
      (blend q a b).get i = if q.signs.testBit i then a.get i else b.get i := by
  have hget (a b : Quad) (i : Fin 4) :
      (blend q a b).get i = (q.get i &&& a.get i) ||| (~~~q.get i &&& b.get i) := by
    rw [blend, get_or, get_and, get_without]
  simp only [hget, testBit_signs]
  constructor
  · intro h a b i
    exact isFilled_iff_selects.1 (h i) _ _
  · intro h i
    refine isFilled_iff_selects.2 fun a b => ?_
    have hi := h (splat a) (splat b) i
    rwa [get_splat, get_splat] at hi

/-! ## Instructions on plain quads -/

/-- The sign bits of the lanes, as truth values in order. -/
def flags (q : Quad) : List Bool := List.ofFn fun i : Fin 4 => q.signs.testBit i

/-- The quad that truth values at the front of a row are loaded as. -/
def ofFlags (flags : List Bool) : Quad := ofLanes fun i => fill (flags.getD i false)

/-- The quad with one lane replaced, in a buffer of truth values. -/
def setFlag (q : Quad) (place : Nat) (b : Bool) : Quad :=
  ofFlags ((q.flags ++ List.replicate (bufferSlots - 4) false).set place b)

/-- The lanes where `a` is less, of integers. -/
def lessWords (s : Signedness) (a b : Quad) : Quad :=
  match s with
  | .signed => compare BitVec.slt a b
  | .unsigned => compare BitVec.slt (Integer.biased a) (Integer.biased b)

/-- The lanes where a comparison of numbers holds. Floats have an instruction for each comparison,
integers one for equality and one for less. -/
def compareWords (mode : Denormals) : Comparison → Number → Quad → Quad → Quad
  | .eq, .float, a, b => compare (fun x y => Single.eq mode ⟨x⟩ ⟨y⟩) a b
  | .ne, .float, a, b => compare (fun x y => !Single.eq mode ⟨x⟩ ⟨y⟩) a b
  | .lt, .float, a, b => compare (fun x y => Single.lt mode ⟨x⟩ ⟨y⟩) a b
  | .le, .float, a, b => compare (fun x y => Single.le mode ⟨x⟩ ⟨y⟩) a b
  | .gt, .float, a, b => compare (fun x y => Single.lt mode ⟨y⟩ ⟨x⟩) a b
  | .ge, .float, a, b => compare (fun x y => Single.le mode ⟨y⟩ ⟨x⟩) a b
  | .eq, .integer _, a, b => compare (fun x y => x == y) a b
  | .ne, .integer _, a, b => not (compare (fun x y => x == y) a b)
  | .lt, .integer s, a, b => lessWords s a b
  | .le, .integer s, a, b => not (lessWords s b a)
  | .gt, .integer s, a, b => lessWords s b a
  | .ge, .integer s, a, b => not (lessWords s a b)

theorem filled_lessWords (s : Signedness) (a b : Quad) : (lessWords s a b).Filled := by
  cases s with
  | signed => exact filled_compare _ _ _
  | unsigned => exact filled_compare _ _ _

theorem filled_compareWords (mode : Denormals) (c : Comparison) (t : Number) (a b : Quad) :
    (compareWords mode c t a b).Filled := by
  cases t with
  | float => cases c <;> exact filled_compare _ _ _
  | integer s =>
    cases c with
    | eq => exact filled_compare _ _ _
    | ne => exact (filled_compare _ _ _).not
    | lt => exact filled_lessWords s a b
    | le => exact (filled_lessWords s b a).not
    | gt => exact filled_lessWords s b a
    | ge => exact (filled_lessWords s a b).not

end Quad

/-! ## Logic and comparisons -/

/-- The logic of two masks. -/
inductive Connective
  | and
  | or
  | xor
  | eq
deriving DecidableEq

namespace Connective

/-- Applied to masks. -/
def apply : Connective → Reg .quad .bool → Reg .quad .bool → Reg .quad .bool
  | and => Reg.maskAnd
  | or => Reg.maskOr
  | xor => Reg.maskXor
  | eq => Reg.eq .keep

/-- Applied to plain quads. -/
def words : Connective → Quad → Quad → Quad
  | and => Quad.and
  | or => Quad.or
  | xor => Quad.xor
  | eq => fun a b => Quad.not (Quad.xor a b)

theorem words_apply (c : Connective) (m m' : QuadMask) :
    (c.apply m m').words = c.words m.words m'.words := by
  cases c <;> rfl

theorem filled_words (c : Connective) {a b : Quad} (ha : a.Filled) (hb : b.Filled) :
    (c.words a b).Filled := by
  cases c with
  | and => exact ha.and hb
  | or => exact ha.or hb
  | xor => exact ha.xor hb
  | eq => exact (ha.xor hb).not

end Connective

/-- A comparison of registers of numbers. -/
def Script.Comparison.register (mode : Denormals) {B : Backend} {t : Number} :
    Comparison → Reg B (.number t) → Reg B (.number t) → Reg B .bool
  | .eq => Reg.eq mode
  | .ne => Reg.ne mode
  | .lt => Reg.lt mode
  | .le => Reg.le mode
  | .gt => Reg.gt mode
  | .ge => Reg.ge mode

theorem Script.Comparison.words_register (mode : Denormals) (c : Comparison) (t : Number)
    (a b : Reg .quad (.number t)) :
    QuadMask.words (c.register mode a b) = Quad.compareWords mode c t a b := by
  cases t with
  | float => cases c <;> rfl
  | integer s => cases s <;> cases c <;> rfl

/-! ## Masks from memory -/

/-- The words of a mask that is loaded. -/
theorem words_load (row : List Bool) :
    (QuadMask.words <$> (Reg.load row : Except Fault (Reg .quad .bool)) : Except Fault Quad)
      = if 4 ≤ row.length then .ok (Quad.ofFlags row) else .error .shortSource := by
  by_cases h : 4 ≤ row.length
  · have hload : (Reg.load row : Except Fault (Reg .quad .bool)) = .ok (Reg.ofFront row) := if_pos h
    rw [hload, if_pos h]
    rfl
  · have hload : (Reg.load row : Except Fault (Reg .quad .bool)) = .error .shortSource := if_neg h
    rw [hload, if_neg h]
    rfl

/-- The words of a mask with one lane replaced. -/
theorem words_insert (m : Reg .quad .bool) (place : Nat) (b : Bool) :
    (QuadMask.words <$> m.insert place b : Except Fault Quad)
      = if place < 4 then .ok ((QuadMask.words m).setFlag place b)
        else .error (.registerLaneOutOfRange place) := by
  by_cases h : place < 4
  · have hinsert : m.insert place b = .ok (m.set ⟨place, h⟩ b) := dif_pos h
    rw [hinsert, if_pos h]
    rfl
  · have hinsert : m.insert place b = .error (.registerLaneOutOfRange place) := dif_neg h
    rw [hinsert, if_neg h]
    rfl

/-! ## How masks come about -/

/-- A way to come by a mask of the four-lane unit. -/
inductive MaskTerm
  /-- what a register holds at first -/
  | zeros
  | splat (b : Bool)
  /-- the front of a row of truth values -/
  | load (row : List Bool)
  /-- another mask with one lane replaced -/
  | insert (m : MaskTerm) (place : Nat) (b : Bool)
  | compare (c : Comparison) (t : Number) (a b : Quad)
  /-- numbers as truth values -/
  | cast (t : Number) (a : Quad)
  | logic (c : Connective) (a b : MaskTerm)
  | not (a : MaskTerm)
  | select (cond a b : MaskTerm)

namespace MaskTerm

variable {mode : Denormals} {q : Quad}

/-- The mask, by the operations of registers. -/
def run (mode : Denormals) : MaskTerm → Except Fault (Reg .quad .bool)
  | zeros => .ok (Reg.splat Kind.bool.zeroLane)
  | splat b => .ok (Reg.splat b)
  | load row => Reg.load row
  | insert m place b => do Reg.insert (← m.run mode) place b
  | compare c t a b => .ok (c.register mode (t := t) a b)
  | cast t a => .ok (Reg.cast .bool (k := .number t) a)
  | logic c a b => do
    let a ← a.run mode
    let b ← b.run mode
    return c.apply a b
  | not a => do return Reg.maskNot (← a.run mode)
  | select cond a b => do
    let cond ← cond.run mode
    let a ← a.run mode
    let b ← b.run mode
    return Reg.select (k := .bool) cond a b

/-- The words of the mask, by the instructions of the unit. -/
def words (mode : Denormals) : MaskTerm → Except Fault Quad
  | zeros => .ok (Quad.splat 0)
  | splat b => .ok (Quad.splat (fill b))
  | load row => if 4 ≤ row.length then .ok (Quad.ofFlags row) else .error .shortSource
  | insert m place b => do
    let q ← m.words mode
    if place < 4 then .ok (q.setFlag place b) else .error (.registerLaneOutOfRange place)
  | compare c t a b => .ok (Quad.compareWords mode c t a b)
  | cast t a => .ok (Quad.compareWords .keep .ne t a (Quad.splat 0))
  | logic c a b => do
    let a ← a.words mode
    let b ← b.words mode
    return c.words a b
  | not a => do return Quad.not (← a.words mode)
  | select cond a b => do
    let cond ← cond.words mode
    let a ← a.words mode
    let b ← b.words mode
    return Quad.blend cond a b

/-- Both ways come to the same words, or to the same fault. -/
theorem words_eq (mode : Denormals) (t : MaskTerm) :
    t.words mode = QuadMask.words <$> t.run mode := by
  induction t with
  | zeros => rfl
  | splat b => rfl
  | load row => exact (words_load row).symm
  | insert m place b ih =>
    simp only [words, run, ih, bind_map_left, map_bind, words_insert]
  | compare c t a b => exact congrArg Except.ok (c.words_register mode t a b).symm
  | cast t a =>
    cases t with
    | float => rfl
    | integer s => cases s <;> rfl
  | logic c a b iha ihb =>
    simp only [words, run, iha, ihb, bind_map_left, map_bind, map_pure, c.words_apply]
  | not a ih =>
    simp only [words, run, ih, bind_map_left, map_bind, map_pure]
    rfl
  | select cond a b ihcond iha ihb =>
    simp only [words, run, ihcond, iha, ihb, bind_map_left, map_bind, map_pure]
    rfl

/-- An answer after another comes from one that there was. -/
theorem exists_of_bind {α : Type} {x : Except Fault α} {f : α → Except Fault Quad}
    (h : x >>= f = .ok q) : ∃ a, x = .ok a ∧ f a = .ok q := by
  cases x with
  | error e => cases h
  | ok a => exact ⟨a, rfl, h⟩

/-- The instructions of the unit keep quads filled. -/
theorem filled_of_words {t : MaskTerm} (h : t.words mode = .ok q) : q.Filled := by
  induction t generalizing q with
  | zeros =>
    obtain rfl := Except.ok.inj h
    exact Quad.filled_splat (.inl rfl)
  | splat b =>
    obtain rfl := Except.ok.inj h
    exact Quad.filled_splat (isFilled_fill b)
  | load row =>
    rw [words] at h
    split at h
    · obtain rfl := Except.ok.inj h
      exact Quad.filled_ofLanes _
    · cases h
  | insert m place b ih =>
    -- whatever the lanes were, they are stored as truth values and loaded from them
    obtain ⟨p, -, h⟩ := exists_of_bind h
    split at h
    · obtain rfl := Except.ok.inj h
      exact Quad.filled_ofLanes _
    · cases h
  | compare c t a b =>
    obtain rfl := Except.ok.inj h
    exact Quad.filled_compareWords mode c t a b
  | cast t a =>
    obtain rfl := Except.ok.inj h
    exact Quad.filled_compareWords .keep .ne t a _
  | logic c a b iha ihb =>
    obtain ⟨p, ha, h⟩ := exists_of_bind h
    obtain ⟨p', hb, h⟩ := exists_of_bind h
    obtain rfl := Except.ok.inj h
    exact c.filled_words (iha ha) (ihb hb)
  | not a ih =>
    obtain ⟨p, ha, h⟩ := exists_of_bind h
    obtain rfl := Except.ok.inj h
    exact (ih ha).not
  | select cond a b ihcond iha ihb =>
    obtain ⟨m, hcond, h⟩ := exists_of_bind h
    obtain ⟨p, ha, h⟩ := exists_of_bind h
    obtain ⟨p', hb, h⟩ := exists_of_bind h
    obtain rfl := Except.ok.inj h
    exact (ihcond hcond).blend (iha ha) (ihb hb)

end MaskTerm

/-! ## What is read from masks -/

/-- The truth value of a lane by its whole word: all bits are set. -/
def QuadMask.truth (m : QuadMask) (i : Fin 4) : Bool := m.words.get i == BitVec.allOnes 32

/-- The sign of a lane stands for all of its bits. -/
theorem QuadMask.lane_eq_truth (m : QuadMask) (i : Fin 4) : m.lane i = m.truth i := by
  have hfill : ∀ b : Bool, b = (fill b == BitVec.allOnes 32) := by decide
  rw [truth, get_words]
  exact hfill _

theorem Quad.signs_lt (q : Quad) : q.signs < 16 := by
  have h : ∀ a b c d : Bool, a.toNat + 2 * b.toNat + 4 * c.toNat + 8 * d.toNat < 16 := by decide
  exact h _ _ _ _

namespace Mask

open Batch

variable {n : ℕ}

/-- The truth value of a lane of a batch, by its whole word. -/
def truth (m : Mask .quad n) (i : Fin (width .quad n)) : Bool :=
  QuadMask.truth (m.regs.get (registerOf i)) (placeOf i)

theorem lane_eq_truth (m : Mask .quad n) : m.lane = m.truth :=
  funext fun i => QuadMask.lane_eq_truth (m.regs.get (registerOf i)) (placeOf i)

/-- All that is read from the masks of a batch is one truth value for each lane. -/
structure ReadAs (m : Mask .quad n) (truth : Fin (width .quad n) → Bool) : Prop where
  any : m.any = true ↔ ∃ i, truth i = true
  all : m.all = true ↔ ∀ i, truth i = true
  none : m.none = true ↔ ∀ i, truth i = false
  none_eq : m.none = !m.any
  count : m.count = (List.finRange (width .quad n)).countP truth
  /-- the lanes of a register are the bits of its bitmask, and no other bit is set -/
  bitmask : ∀ (r : Fin n) (bit : ℕ), (Reg.bitmask (m.regs.get r)).testBit bit =
    if h : bit < Backend.quad.lanes then truth (laneAt r ⟨bit, h⟩) else false
  bitmasks : m.bitmasks = List.ofFn fun r => Reg.bitmask (m.regs.get r)
  extract : ∀ (r : Fin n) (j : Fin Backend.quad.lanes),
    (m.regs.get r).extract j = .ok (truth (laneAt r j))
  store : ∀ (r : Fin n) (row : List Bool), Backend.quad.lanes ≤ row.length →
    (m.regs.get r).store row =
      .ok ((List.ofFn fun j => truth (laneAt r j)) ++ row.drop Backend.quad.lanes)
  list : m.toList = List.ofFn truth
  /-- a choice between registers of any kind, bit for bit -/
  select : ∀ {k : Kind} (r : Fin n) (a b : Reg .quad k) (j : Fin Backend.quad.lanes),
    (Reg.select (m.regs.get r) a b).lane j = if truth (laneAt r j) then a.lane j else b.lane j
  castFloat : ∀ (r : Fin n) (j : Fin Backend.quad.lanes),
    (Reg.cast .float (m.regs.get r)).lane j =
      if truth (laneAt r j) then Single.one else Single.zero false
  castWord : ∀ (s : Signedness) (r : Fin n) (j : Fin Backend.quad.lanes),
    (Reg.cast (.number (.integer s)) (m.regs.get r)).lane j =
      if truth (laneAt r j) then (1 : Word) else (0 : Word)

theorem readAs_lane (m : Mask .quad n) : m.ReadAs m.lane where
  any := any_eq_true
  all := all_eq_true
  none := none_eq_true
  none_eq := rfl
  count := m.count_eq_countP_lane
  bitmask r bit := by
    split
    case isTrue h => exact (m.lane_laneAt r ⟨bit, h⟩).symm
    case isFalse h =>
      have hpow : 2 ^ 4 ≤ 2 ^ bit := Nat.pow_le_pow_right (by decide) (Nat.not_lt.1 h)
      exact Nat.testBit_lt_two_pow (Nat.lt_of_lt_of_le (Quad.signs_lt _) hpow)
  bitmasks := by
    rw [bitmasks, m.regs_eq_ofFn, List.map_ofFn]
    rfl
  extract r j := by
    rw [lane_laneAt]
    exact dif_pos j.isLt
  store r row h := by
    have hlanes : (List.ofFn fun j => m.lane (laneAt r j)) = (m.regs.get r).toList :=
      congrArg List.ofFn (funext fun j => m.lane_laneAt r j)
    rw [hlanes]
    exact if_pos h
  list := m.toList_eq_ofFn
  select r a b j := by rw [lane_laneAt, Reg.lane_select]
  castFloat r j := by
    rw [lane_laneAt, Reg.lane_cast]
    rfl
  castWord s r j := by
    rw [lane_laneAt, Reg.lane_cast]
    rfl

end Mask

/-- Every way to come by a mask leaves all ones or all zeros in each of its four words, whether it
is carried out with the operations on masks or with the instructions of the unit alone, which come
to the same words. So one truth value for each lane, by all bits of its word, is what the
reductions, the bitmasks, reads of single lanes, stores, choices and casts see of the masks of a
batch. -/
theorem masks_canonical (mode : Denormals) (n : ℕ) :
    (∀ t : MaskTerm, t.words mode = QuadMask.words <$> t.run mode ∧
      ∀ q, t.words mode = .ok q → ∀ i, q.get i = 0 ∨ q.get i = 0xffffffff) ∧
    ∀ m : Mask .quad n, m.ReadAs m.truth := by
  refine ⟨fun t => ⟨t.words_eq mode, fun q h i => ?_⟩, fun m => ?_⟩
  · exact MaskTerm.filled_of_words h i
  · rw [← m.lane_eq_truth]
    exact m.readAs_lane

/-- Comparisons with NaN and with zeros of both signs, a cast of a NaN, and a lane that is
replaced. -/
theorem masks_canonical_nested :
    let a : Quad := #v[0x7fc00000, 0x3f800000, 0x80000000, 0xbf800000]
    let b : Quad := #v[0x3f800000, 0x7fc00000, 0, 0x3f800000]
    let t : MaskTerm := .select (.compare .lt .float a b)
      (.not (.insert (.load [true, false, true, false, true]) 1 true))
      (.logic .eq (.cast .float a) (.compare .ge (.integer .unsigned) a b))
    let q : Quad := #v[0xffffffff, 0, 0, 0xffffffff]
    t.words .keep = .ok q ∧ ∀ i, q.get i = 0 ∨ q.get i = 0xffffffff := by
  intro a b t q
  have hwords : t.words .keep = .ok q := by decide +kernel
  exact ⟨hwords, ((masks_canonical .keep 0).1 t).2 q hwords⟩

end Wavefront
