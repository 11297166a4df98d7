import Wavefront.Register.Lanes

/-!
# The lanes of the four-lane unit

Every operation of the unit that is no move acts on each lane alone, and on integers it computes
what `Lane` says: products by way of widened ones (`get_mulLow`), unsigned order by way of the
signed one (`lane_lt`), partial operations by way of buffers (`zipLanes_refused`). After this module
only the lanes of a result are spoken of.
-/

namespace Wavefront

/-! ## Answers that are refused under a condition -/

/-- The answer is the fault `e` under the condition, and `v` otherwise. -/
def RefusedWhen {α ε : Type} (p : Prop) (e : ε) (v : α) (answer : Except ε α) : Prop :=
  (p → answer = .error e) ∧ (¬p → answer = .ok v)

namespace RefusedWhen

variable {α β ε : Type} {e : ε} {p : Prop} {v : α} {answer : Except ε α}

theorem congr {q : Prop} {w : α} (h : RefusedWhen p e v answer) (hp : q ↔ p) (hv : ¬p → v = w) :
    RefusedWhen q e w answer :=
  ⟨fun hq => h.1 (hp.1 hq), fun hq => (h.2 (mt hp.2 hq)).trans (congrArg _ (hv (mt hp.2 hq)))⟩

/-- What is refused under a condition is refused under no other. -/
theorem exists_error_iff (h : RefusedWhen p e v answer) : (∃ e, answer = .error e) ↔ p := by
  refine ⟨?_, fun hp => ⟨e, h.1 hp⟩⟩
  rintro ⟨e', he'⟩
  by_cases hp : p
  · exact hp
  · rw [h.2 hp] at he'
    cases he'

/-- What is done to the answer afterwards changes no refusal. -/
theorem bind (h : RefusedWhen p e v answer) (f : α → β) :
    RefusedWhen p e (f v) (answer >>= fun a => .ok (f a)) := by
  refine ⟨fun hp => ?_, fun hp => ?_⟩
  · rw [h.1 hp]
    rfl
  · rw [h.2 hp]
    rfl

/-- A list of answers is refused when one of them is. -/
theorem mapM {f : α → Except ε β} {g : α → β} {p : α → Prop}
    (hf : ∀ x, RefusedWhen (p x) e (g x) (f x)) (xs : List α) :
    RefusedWhen (∃ x ∈ xs, p x) e (xs.map g) (xs.mapM f) := by
  induction xs with
  | nil => exact ⟨fun ⟨_, hx, _⟩ => absurd hx List.not_mem_nil, fun _ => rfl⟩
  | cons x xs ih =>
    rw [List.mapM_cons]
    refine ⟨?_, fun h => ?_⟩
    · rintro ⟨y, hy, h⟩
      by_cases hx : p x
      · rw [(hf x).1 hx]
        rfl
      · rcases List.mem_cons.1 hy with rfl | hy
        · exact absurd h hx
        · rw [(hf x).2 hx, ih.1 ⟨y, hy, h⟩]
          rfl
    · rw [(hf x).2 fun hx => h ⟨x, .head _, hx⟩,
        ih.2 fun ⟨y, hy, hp⟩ => h ⟨y, .tail _ hy, hp⟩]
      rfl

/-- A vector of answers is refused when one of them is. -/
theorem ofFnM {n : Nat} {f : Fin n → Except ε β} {g : Fin n → β} {p : Fin n → Prop}
    (hf : ∀ i, RefusedWhen (p i) e (g i) (f i)) :
    RefusedWhen (∃ i, p i) e (Vector.ofFn g) (Vector.ofFnM f) := by
  induction n with
  | zero =>
    rw [Vector.ofFnM_zero]
    exact ⟨fun ⟨i, _⟩ => i.elim0, fun _ => congrArg Except.ok (Vector.ext fun i hi => by omega)⟩
  | succ n ih =>
    have ih := ih fun i => hf i.castSucc
    rw [Vector.ofFnM_succ]
    refine ⟨?_, fun h => ?_⟩
    · rintro ⟨i, hi⟩
      by_cases hinit : ∃ i : Fin n, p i.castSucc
      · rw [ih.1 hinit]
        rfl
      · rw [ih.2 hinit]
        induction i using Fin.lastCases with
        | last => rw [(hf _).1 hi]; rfl
        | cast i => exact absurd ⟨i, hi⟩ hinit
    · rw [ih.2 fun ⟨i, hi⟩ => h ⟨i.castSucc, hi⟩, (hf _).2 fun hi => h ⟨_, hi⟩, Vector.ofFn_succ]
      rfl

end RefusedWhen

namespace Quad

variable (a b : Quad) (i : Fin 4)

@[simp] theorem get_map (f : Word → Word) : (Vector.map f a).get i = f (a.get i) :=
  Vector.getElem_map f i.isLt

@[simp] theorem get_zipWith (f : Word → Word → Word) :
    (Vector.zipWith f a b).get i = f (a.get i) (b.get i) :=
  Vector.getElem_zipWith i.isLt

@[simp] theorem get_ofFn (f : Fin 4 → Word) : Vector.get (Vector.ofFn f) i = f i :=
  Vector.getElem_ofFn i.isLt

/-- A word filled by a truth value selects under `and`. -/
theorem fill_and (c : Bool) (w : Word) : fill c &&& w = if c then w else 0 := by
  cases c
  · exact BitVec.zero_and
  · exact BitVec.allOnes_and

/-! ## Buffers -/

theorem front_toBuffer : front (toBuffer a) = a.toList := by
  rw [front, toBuffer, List.take_append_of_le_length (by simp), List.take_of_length_le (by simp)]

/-- What is written to the front of a buffer is read from it again. -/
theorem get_ofBuffer {slots values : List Word} {w : Word} (h : values[i.val]? = some w) :
    (ofBuffer (withFront slots values)).get i = w := by
  have hi : i.val < values.length := (List.getElem?_eq_some_iff.1 h).1
  rw [ofBuffer, get_ofFn, withFront, List.getD_eq_getElem?_getD, List.getElem?_append_left hi, h,
    Option.getD_some]

/-! ## Products

A widening product reads the left of each row and fills the whole row. The product of all lanes is
put together from two of them, and each low word goes where its factors came from. -/

/-- The left place of a row. -/
def evenPlace (row : Fin 2) : Fin 4 := ⟨2 * row.val, by omega⟩

/-- The right place of a row. -/
def oddPlace (row : Fin 2) : Fin 4 := ⟨2 * row.val + 1, by omega⟩

/-- A lane is on the left or on the right of some row. -/
theorem exists_place : ∃ row, i = evenPlace row ∨ i = oddPlace row := by
  revert i
  decide

/-- A row as one number of 64 bits, with the low word on the left. -/
def pair (row : Fin 2) : BitVec 64 := a.get (oddPlace row) ++ a.get (evenPlace row)

theorem setWidth_pair (row : Fin 2) : (a.pair row).setWidth 32 = a.get (evenPlace row) :=
  BitVec.setWidth_append_eq_right

/-- A number of 64 bits is its high word and its low word. -/
theorem append_words (p : BitVec 64) : (p >>> 32).setWidth 32 ++ p.setWidth 32 = p := by
  refine BitVec.eq_of_getLsbD_eq fun k hk => ?_
  rw [BitVec.getLsbD_append, BitVec.getLsbD_setWidth, BitVec.getLsbD_setWidth,
    BitVec.getLsbD_ushiftRight]
  split
  case isTrue h => rw [decide_eq_true h, Bool.true_and]
  case isFalse h =>
    have hhigh : k - 32 < 32 := by omega
    rw [decide_eq_true hhigh, Bool.true_and, Nat.add_sub_cancel' (Nat.not_lt.1 h)]

/-- The rows of the widened products are the full products of what was on their left. -/
theorem pair_mulEven (row : Fin 2) :
    (mulEven a b).pair row = product (a.get (evenPlace row)) (b.get (evenPlace row)) := by
  match row with
  | 0 => exact append_words _
  | 1 => exact append_words _

theorem rightColumn_evenPlace (row : Fin 2) :
    (rightColumn a).get (evenPlace row) = a.get (oddPlace row) := by
  match row with
  | 0 => rfl
  | 1 => rfl

/-- The low words of the first two products go to the left. -/
theorem get_mulLow_evenPlace (row : Fin 2) :
    (mulLow a b).get (evenPlace row) = ((mulEven a b).pair row).setWidth 32 := by
  rw [setWidth_pair]
  match row with
  | 0 => rfl
  | 1 => rfl

/-- The low words of the other two go to the right. -/
theorem get_mulLow_oddPlace (row : Fin 2) :
    (mulLow a b).get (oddPlace row)
      = ((mulEven (rightColumn a) (rightColumn b)).pair row).setWidth 32 := by
  rw [setWidth_pair]
  match row with
  | 0 => rfl
  | 1 => rfl

/-- Each lane has the low word of the full product of the same lanes. -/
theorem get_mulLow_eq_setWidth :
    (mulLow a b).get i = (product (a.get i) (b.get i)).setWidth 32 := by
  obtain ⟨row, rfl | rfl⟩ := exists_place i
  · rw [get_mulLow_evenPlace, pair_mulEven]
  · rw [get_mulLow_oddPlace, pair_mulEven, rightColumn_evenPlace, rightColumn_evenPlace]

/-- The low word of a full product is the wrapping product. -/
theorem setWidth_product (x y : Word) : (product x y).setWidth 32 = x * y := by
  rw [product, BitVec.setWidth_mul _ _ (by decide), BitVec.setWidth_setWidth_of_le _ (by decide),
    BitVec.setWidth_setWidth_of_le _ (by decide), BitVec.setWidth_eq, BitVec.setWidth_eq]

@[simp] theorem get_mulLow : (mulLow a b).get i = a.get i * b.get i := by
  rw [get_mulLow_eq_setWidth, setWidth_product]

namespace Integer

/-! ## Order -/

/-- Flipping the top bit lowers the value by half the range. -/
theorem toInt_flip (x : Word) : (x ^^^ 0x80000000).toInt = (x.toNat : Int) - 0x80000000 := by
  have hx := BitVec.cons_msb_setWidth x
  have hflip : x ^^^ 0x80000000 = BitVec.cons (!x.msb) (x.setWidth 31) := by
    conv => lhs; rw [← hx]
    rw [show (0x80000000 : Word) = BitVec.cons true 0#31 from rfl, BitVec.cons_xor_cons,
      Bool.xor_true, BitVec.xor_zero]
  have hlow := (x.setWidth 31).isLt
  have htoNat : x.toNat = x.msb.toNat <<< 31 + (x.setWidth 31).toNat := by
    conv => lhs; rw [← hx]
    exact BitVec.toNat_cons'
  rw [BitVec.toInt_eq_msb_cond, hflip, BitVec.msb_cons, BitVec.toNat_cons', htoNat]
  cases x.msb
  · simp only [Bool.not_false, if_true, Bool.toNat_true, Bool.toNat_false, Nat.shiftLeft_eq]
    omega
  · simp only [Bool.not_true, Bool.false_eq_true, if_false, Bool.toNat_true, Bool.toNat_false,
      Nat.shiftLeft_eq]
    omega

/-- With the top bits flipped, signed order is unsigned order. -/
theorem slt_flip (x y : Word) :
    BitVec.slt (x ^^^ 0x80000000) (y ^^^ 0x80000000) = BitVec.ult x y := by
  rw [BitVec.slt, toInt_flip, toInt_flip, BitVec.ult]
  exact decide_eq_decide.2 (by omega)

@[simp] theorem lane_eq : (eq a b).lane i = (a.get i == b.get i) := QuadMask.lane_compare _ a b i

theorem lane_lt (s : Signedness) (mode : Denormals) :
    (lt s a b).lane i = Lane.lt mode (t := .integer s) (a.get i) (b.get i) := by
  cases s with
  | signed => exact QuadMask.lane_compare _ a b i
  | unsigned =>
    rw [lt, QuadMask.lane_compare, biased, biased, get_xor, get_xor, get_splat, slt_flip]
    rfl

theorem lane_gt (s : Signedness) (mode : Denormals) :
    (gt s a b).lane i = Lane.lt mode (t := .integer s) (b.get i) (a.get i) :=
  lane_lt b a i s mode

theorem lane_le (s : Signedness) (mode : Denormals) :
    (le s a b).lane i = Lane.le mode (t := .integer s) (a.get i) (b.get i) := by
  rw [le, QuadMask.lane_not, lane_gt a b i s mode]
  cases s with
  | signed => exact BitVec.sle_eq_not_slt.symm
  | unsigned => exact (BitVec.ule_eq_not_ult _ _).symm

theorem lane_ge (s : Signedness) (mode : Denormals) :
    (ge s a b).lane i = Lane.le mode (t := .integer s) (b.get i) (a.get i) :=
  lane_le b a i s mode

@[simp] theorem get_min (s : Signedness) :
    (min s a b).get i = Lane.min (t := .integer s) (a.get i) (b.get i) := by
  rw [min, QuadMask.get_blend, lane_lt a b i s .keep]
  rfl

@[simp] theorem get_max (s : Signedness) :
    (max s a b).get i = Lane.max (t := .integer s) (a.get i) (b.get i) := by
  rw [max, QuadMask.get_blend, lane_gt a b i s .keep]
  rfl

/-! ## Arithmetic -/

@[simp] theorem get_mul : (mul a b).get i = a.get i * b.get i := get_mulLow a b i

/-- A partial operation is refused when it is on some lane. -/
theorem zipLanes_refused {f : Word → Word → Except Fault Word} {g : Word → Word → Word}
    {p : Word → Prop} {e : Fault} (hf : ∀ x y, RefusedWhen (p y) e (g x y) (f x y)) :
    RefusedWhen (∃ i : Fin 4, p (b.get i)) e (Vector.ofFn fun i => g (a.get i) (b.get i))
      (zipLanes f a b) := by
  have h := (RefusedWhen.mapM (fun q : Word × Word => hf q.1 q.2)
    (a.toList.zip b.toList)).bind fun values => ofBuffer (withFront (toBuffer a) values)
  rw [zipLanes, front_toBuffer, front_toBuffer]
  refine h.congr ?_ fun _ => ?_
  · constructor
    · rintro ⟨i, hi⟩
      exact ⟨(a.get i, b.get i), List.mem_iff_getElem.2 ⟨i, by simp, by simp [Vector.get]⟩, hi⟩
    · rintro ⟨q, hq, hp⟩
      obtain ⟨i, hi, rfl⟩ := List.mem_iff_getElem.1 hq
      have hi : i < 4 := by simpa using hi
      exact ⟨⟨i, hi⟩, by simpa [Vector.get] using hp⟩
  · apply ext_get
    intro i
    rw [get_ofFn]
    exact get_ofBuffer i (by simp [Vector.get])

/-! ## Shifts -/

@[simp] theorem get_shiftLeft (count : Word) :
    (shiftLeft a count).get i = Lane.shiftLeft (a.get i) count := by
  rw [shiftLeft, Lane.shiftLeft, BitVec.toNat_setWidth_of_le (by decide)]
  by_cases h : 31 < count.toNat
  · rw [if_pos h, if_neg (by omega), get_splat]
  · rw [if_neg h, if_pos (by omega), get_map]

/-- Shifted by all but one place, a signed word is its sign everywhere. -/
theorem sshiftRight_31 (x : Word) : x.sshiftRight 31 = fill x.msb := by
  apply BitVec.eq_of_getLsbD_eq
  intro i hi
  have hfill : (fill x.msb).getLsbD i = x.msb := by
    cases x.msb
    · exact BitVec.getLsbD_zero
    · exact (BitVec.getLsbD_allOnes).trans (decide_eq_true hi)
  rw [BitVec.getLsbD_sshiftRight, hfill, decide_eq_false (by omega), Bool.not_false, Bool.true_and]
  by_cases h : 31 + i < 32
  · rw [if_pos h, show 31 + i = 32 - 1 by omega, BitVec.msb_eq_getLsbD_last]
  · rw [if_neg h]

@[simp] theorem get_shiftRight (s : Signedness) (count : Word) :
    (shiftRight s a count).get i = Lane.shiftRight s (a.get i) count := by
  have hcount : (count.setWidth 64).toNat = count.toNat := BitVec.toNat_setWidth_of_le (by decide)
  cases s with
  | signed =>
    simp only [shiftRight, Lane.shiftRight, hcount, get_map]
    by_cases h : 31 < count.toNat
    · rw [if_pos h, show Nat.min count.toNat 31 = 31 from Nat.min_eq_right (by omega),
        sshiftRight_31]
    · rw [if_neg h, show Nat.min count.toNat 31 = count.toNat from Nat.min_eq_left (by omega)]
  | unsigned =>
    simp only [shiftRight, Lane.shiftRight, hcount]
    by_cases h : 31 < count.toNat
    · rw [if_pos h, if_neg (by omega), get_splat]
    · rw [if_neg h, if_pos (by omega), get_map]

end Integer

namespace Float

/-! ## Floats -/

@[simp] theorem get_map (f : Single → Single) : (map f a).get i = (f ⟨a.get i⟩).bits :=
  Quad.get_map a i _

@[simp] theorem get_zip (f : Single → Single → Single) :
    (zip f a b).get i = (f ⟨a.get i⟩ ⟨b.get i⟩).bits :=
  Quad.get_zipWith a b i _

@[simp] theorem lane_compare (relation : Single → Single → Bool) :
    (compare relation a b).lane i = relation ⟨a.get i⟩ ⟨b.get i⟩ :=
  QuadMask.lane_compare _ a b i

@[simp] theorem get_splat (x : Single) : (splat x).get i = x.bits := Quad.get_splat x.bits i

@[simp] theorem get_abs : (abs a).get i = (Single.abs ⟨a.get i⟩).bits := by
  rw [abs, get_and, Quad.get_splat]
  rfl

@[simp] theorem get_neg : (neg a).get i = (Single.neg ⟨a.get i⟩).bits := by
  rw [neg, get_xor, Quad.get_splat]
  rfl

@[simp] theorem get_ofSigned : (ofSigned a).get i = (Single.ofInt (a.get i).toInt).bits :=
  Quad.get_map a i _

@[simp] theorem get_toSignedCut : (toSignedCut a).get i = cut ⟨a.get i⟩ := Quad.get_map a i _

@[simp] theorem get_lanewise (f : Single → Single) :
    (lanewise f a).get i = (f ⟨a.get i⟩).bits := by
  rw [lanewise, front_toBuffer]
  exact get_ofBuffer i (by simp [Vector.get])

@[simp] theorem get_zipLanes (f : Single → Single → Single) :
    (zipLanes f a b).get i = (f ⟨a.get i⟩ ⟨b.get i⟩).bits := by
  rw [zipLanes, front_toBuffer, front_toBuffer]
  exact get_ofBuffer i (by simp [Vector.get])

end Float

end Quad

end Wavefront
