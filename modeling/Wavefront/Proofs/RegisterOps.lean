import Wavefront.Proofs.Conversions

/-!
# Register operations, lane by lane

What every operation of a register does to a lane. On both backends it is the operation of `Lane` on
the lanes of the operands, with three exceptions that are named here:

* where the scalar backend calls the library, the quad backend has instructions of its own
  (`byBackend`);
* an integer quotient or remainder is refused as a whole when one lane refuses it;
* the differences across a tile read the neighbours of a lane (`Quad.Float.get_acrossColumns`,
  `Quad.Float.get_acrossRows`), and are zero on the scalar backend.
-/

namespace Wavefront

namespace Lane

/-! ## Lane functions that the operations of `Lane` leave open -/

/-- The quotient by a divisor that is not zero. -/
def ratio (s : Signedness) (x y : Word) : Word :=
  match s with
  | .signed => BitVec.sdiv x y
  | .unsigned => BitVec.udiv x y

/-- The remainder for a divisor that is not zero. -/
def excess (s : Signedness) (x y : Word) : Word :=
  match s with
  | .signed => BitVec.srem x y
  | .unsigned => BitVec.umod x y

theorem quotient_refused (s : Signedness) (x y : Word) :
    RefusedWhen (y = 0) .divisionByZero (ratio s x y) (quotient s x y) :=
  ⟨fun h => if_pos h, fun h => if_neg h⟩

theorem remainder_refused (s : Signedness) (x y : Word) :
    RefusedWhen (y = 0) .remainderByZero (excess s x y) (remainder s x y) :=
  ⟨fun h => if_pos h, fun h => if_neg h⟩

/-- What a lane goes through: a function of the library on the scalar backend, instructions of the
unit on the quad backend. -/
def byBackend (library unit : Single → Single) : Backend → Single → Single
  | .scalar => library
  | .quad => unit

section Library

variable (lib : MathLibrary)

def absLane : Backend → Single → Single := byBackend lib.abs Single.abs

def sqrtLane : Backend → Single → Single := byBackend lib.sqrt Single.sqrt

def truncLane : Backend → Single → Single := byBackend lib.trunc Single.trunc

def roundLane : Backend → Single → Single := byBackend lib.round Single.round

/-- Floor and ceiling of the unit subtract, and that makes a NaN quiet. -/
def floorLane : Backend → Single → Single :=
  byBackend lib.floor fun x => if x.isNaN then x.quiet else x.floor

def ceilLane : Backend → Single → Single :=
  byBackend lib.ceil fun x => if x.isNaN then x.quiet else x.ceil

end Library

end Lane

/-- A mask cuts a word out of the lanes where it is true. -/
theorem QuadMask.get_words_and (m : QuadMask) (w : Word) (i : Fin 4) :
    (Quad.and m.words (Quad.splat w)).get i = if m.lane i then w else 0 := by
  rw [Quad.get_and, get_words, Quad.get_splat, Quad.fill_and]

theorem Quad.Float.lane_ne_zero (a : Quad) (i : Fin 4) :
    (ne .keep a (splat (Single.zero false))).lane i
      = !Single.eq .keep ⟨a.get i⟩ (Single.zero false) := by
  rw [ne, lane_compare, get_splat]

theorem Quad.Integer.lane_ne_zero (a : Quad) (i : Fin 4) :
    ((eq a (Quad.splat 0)).not).lane i = (a.get i != 0) := by
  rw [QuadMask.lane_not, lane_eq, get_splat]
  rfl

namespace Reg

variable {B : Backend} {k : Kind} {t : Number} {s : Signedness}

/-! ## Comparisons -/

@[simp] theorem lane_eq (mode : Denormals) (a b : Reg B k) (i : Fin B.lanes) :
    (eq mode a b).lane i = Lane.eq mode (a.lane i) (b.lane i) := by
  match B, k with
  | .scalar, _ => rfl
  | .quad, .number .float => exact Quad.Float.lane_compare a b i _
  | .quad, .number (.integer _) => exact Quad.Integer.lane_eq a b i
  | .quad, .bool => exact QuadMask.lane_eq a b i

@[simp] theorem lane_ne (mode : Denormals) (a b : Reg B k) (i : Fin B.lanes) :
    (ne mode a b).lane i = !Lane.eq mode (a.lane i) (b.lane i) := by
  match B, k with
  | .scalar, _ => rfl
  | .quad, .number .float => exact Quad.Float.lane_compare a b i _
  | .quad, .number (.integer _) =>
    exact (QuadMask.lane_not _ i).trans (congrArg _ (Quad.Integer.lane_eq a b i))
  | .quad, .bool =>
    refine (QuadMask.lane_xor a b i).trans ?_
    show (QuadMask.lane a i ^^ QuadMask.lane b i) = !(QuadMask.lane a i == QuadMask.lane b i)
    cases QuadMask.lane a i <;> cases QuadMask.lane b i <;> rfl

@[simp] theorem lane_lt (mode : Denormals) (a b : Reg B (.number t)) (i : Fin B.lanes) :
    (lt mode a b).lane i = Lane.lt mode (a.lane i) (b.lane i) := by
  match B, t with
  | .scalar, _ => rfl
  | .quad, .float => exact Quad.Float.lane_compare a b i _
  | .quad, .integer s => exact Quad.Integer.lane_lt a b i s mode

@[simp] theorem lane_le (mode : Denormals) (a b : Reg B (.number t)) (i : Fin B.lanes) :
    (le mode a b).lane i = Lane.le mode (a.lane i) (b.lane i) := by
  match B, t with
  | .scalar, _ => rfl
  | .quad, .float => exact Quad.Float.lane_compare a b i _
  | .quad, .integer s => exact Quad.Integer.lane_le a b i s mode

@[simp] theorem lane_gt (mode : Denormals) (a b : Reg B (.number t)) (i : Fin B.lanes) :
    (gt mode a b).lane i = Lane.lt mode (b.lane i) (a.lane i) := by
  match B, t with
  | .scalar, _ => rfl
  | .quad, .float => exact Quad.Float.lane_compare a b i _
  | .quad, .integer s => exact Quad.Integer.lane_gt a b i s mode

@[simp] theorem lane_ge (mode : Denormals) (a b : Reg B (.number t)) (i : Fin B.lanes) :
    (ge mode a b).lane i = Lane.le mode (b.lane i) (a.lane i) := by
  match B, t with
  | .scalar, _ => rfl
  | .quad, .float => exact Quad.Float.lane_compare a b i _
  | .quad, .integer s => exact Quad.Integer.lane_ge a b i s mode

/-! ## Arithmetic of every number -/

@[simp] theorem lane_min (a b : Reg B (.number t)) (i : Fin B.lanes) :
    (min a b).lane i = Lane.min (a.lane i) (b.lane i) := by
  match B, t with
  | .scalar, _ => rfl
  | .quad, .float => exact congrArg Single.mk (Quad.Float.get_zip a b i _)
  | .quad, .integer s => exact Quad.Integer.get_min a b i s

@[simp] theorem lane_max (a b : Reg B (.number t)) (i : Fin B.lanes) :
    (max a b).lane i = Lane.max (a.lane i) (b.lane i) := by
  match B, t with
  | .scalar, _ => rfl
  | .quad, .float => exact congrArg Single.mk (Quad.Float.get_zip a b i _)
  | .quad, .integer s => exact Quad.Integer.get_max a b i s

@[simp] theorem lane_add (mode : Denormals) (a b : Reg B (.number t)) (i : Fin B.lanes) :
    (add mode a b).lane i = Lane.add mode (a.lane i) (b.lane i) := by
  match B, t with
  | .scalar, _ => rfl
  | .quad, .float => exact congrArg Single.mk (Quad.Float.get_zip a b i _)
  | .quad, .integer _ => exact Quad.get_zipWith a b i _

@[simp] theorem lane_sub (mode : Denormals) (a b : Reg B (.number t)) (i : Fin B.lanes) :
    (sub mode a b).lane i = Lane.sub mode (a.lane i) (b.lane i) := by
  match B, t with
  | .scalar, _ => rfl
  | .quad, .float => exact congrArg Single.mk (Quad.Float.get_zip a b i _)
  | .quad, .integer _ => exact Quad.get_zipWith a b i _

@[simp] theorem lane_mul (mode : Denormals) (a b : Reg B (.number t)) (i : Fin B.lanes) :
    (mul mode a b).lane i = Lane.mul mode (a.lane i) (b.lane i) := by
  match B, t with
  | .scalar, _ => rfl
  | .quad, .float => exact congrArg Single.mk (Quad.Float.get_zip a b i _)
  | .quad, .integer _ => exact Quad.Integer.get_mul a b i

/-! ## Integers -/

/-- A register operation on integers is refused when the operation on some lane is. -/
theorem quotient_refused (a b : Reg B (.number (.integer s))) :
    RefusedWhen (∃ i, b.lane i = (0 : Word)) .divisionByZero
      (ofFn fun i => Lane.ratio s (a.lane i) (b.lane i)) (quotient a b) := by
  match B with
  | .scalar =>
    exact (Lane.quotient_refused s a b).congr ⟨fun ⟨_, h⟩ => h, fun h => ⟨⟨0, by decide⟩, h⟩⟩
      fun _ => rfl
  | .quad => exact Quad.Integer.zipLanes_refused a b (Lane.quotient_refused s)

theorem remainder_refused (a b : Reg B (.number (.integer s))) :
    RefusedWhen (∃ i, b.lane i = (0 : Word)) .remainderByZero
      (ofFn fun i => Lane.excess s (a.lane i) (b.lane i)) (remainder a b) := by
  match B with
  | .scalar =>
    exact (Lane.remainder_refused s a b).congr ⟨fun ⟨_, h⟩ => h, fun h => ⟨⟨0, by decide⟩, h⟩⟩
      fun _ => rfl
  | .quad => exact Quad.Integer.zipLanes_refused a b (Lane.remainder_refused s)

@[simp] theorem lane_and (a b : Reg B (.number (.integer s))) (i : Fin B.lanes) :
    (and a b).lane i = BitVec.and (a.lane i) (b.lane i) := by
  match B with
  | .scalar => rfl
  | .quad => exact Quad.get_and a b i

@[simp] theorem lane_or (a b : Reg B (.number (.integer s))) (i : Fin B.lanes) :
    (or a b).lane i = BitVec.or (a.lane i) (b.lane i) := by
  match B with
  | .scalar => rfl
  | .quad => exact Quad.get_or a b i

@[simp] theorem lane_xor (a b : Reg B (.number (.integer s))) (i : Fin B.lanes) :
    (xor a b).lane i = BitVec.xor (a.lane i) (b.lane i) := by
  match B with
  | .scalar => rfl
  | .quad => exact Quad.get_xor a b i

@[simp] theorem lane_not (a : Reg B (.number (.integer s))) (i : Fin B.lanes) :
    (not a).lane i = BitVec.not (a.lane i) := by
  match B with
  | .scalar => rfl
  | .quad => exact Quad.get_not a i

@[simp] theorem lane_shiftLeft (a : Reg B (.number (.integer s))) (count : Word)
    (i : Fin B.lanes) : (shiftLeft a count).lane i = Lane.shiftLeft (a.lane i) count := by
  match B with
  | .scalar => rfl
  | .quad => exact Quad.Integer.get_shiftLeft a i count

@[simp] theorem lane_shiftRight (a : Reg B (.number (.integer s))) (count : Word)
    (i : Fin B.lanes) : (shiftRight a count).lane i = Lane.shiftRight s (a.lane i) count := by
  match B with
  | .scalar => rfl
  | .quad => exact Quad.Integer.get_shiftRight a i s count

/-! ## Floats -/

@[simp] theorem lane_div (mode : Denormals) (a b : Reg B .float) (i : Fin B.lanes) :
    (div mode a b).lane i = Single.div mode (a.lane i) (b.lane i) := by
  match B with
  | .scalar => rfl
  | .quad => exact congrArg Single.mk (Quad.Float.get_zip a b i _)

@[simp] theorem lane_map (f : Single → Single) (a : Reg B .float) (i : Fin B.lanes) :
    (map f a).lane i = f (a.lane i) := by
  match B with
  | .scalar => rfl
  | .quad => exact congrArg Single.mk (Quad.Float.get_lanewise a i f)

@[simp] theorem lane_zip (f : Single → Single → Single) (a b : Reg B .float) (i : Fin B.lanes) :
    (zip f a b).lane i = f (a.lane i) (b.lane i) := by
  match B with
  | .scalar => rfl
  | .quad => exact congrArg Single.mk (Quad.Float.get_zipLanes a b i f)

@[simp] theorem lane_abs (lib : MathLibrary) (a : Reg B .float) (i : Fin B.lanes) :
    (abs lib a).lane i = Lane.absLane lib B (a.lane i) := by
  match B with
  | .scalar => rfl
  | .quad => exact congrArg Single.mk (Quad.Float.get_abs a i)

@[simp] theorem lane_neg (a : Reg B .float) (i : Fin B.lanes) :
    (neg a).lane i = Single.neg (a.lane i) := by
  match B with
  | .scalar => rfl
  | .quad => exact congrArg Single.mk (Quad.Float.get_neg a i)

@[simp] theorem lane_sqrt (lib : MathLibrary) (a : Reg B .float) (i : Fin B.lanes) :
    (sqrt lib a).lane i = Lane.sqrtLane lib B (a.lane i) := by
  match B with
  | .scalar => rfl
  | .quad => exact congrArg Single.mk (Quad.Float.get_map a i _)

@[simp] theorem lane_trunc (lib : MathLibrary) (a : Reg B .float) (i : Fin B.lanes) :
    (trunc lib a).lane i = Lane.truncLane lib B (a.lane i) := by
  match B with
  | .scalar => rfl
  | .quad => exact congrArg Single.mk (Quad.Float.get_trunc a i)

@[simp] theorem lane_round (lib : MathLibrary) (a : Reg B .float) (i : Fin B.lanes) :
    (round lib a).lane i = Lane.roundLane lib B (a.lane i) := by
  match B with
  | .scalar => rfl
  | .quad => exact congrArg Single.mk (Quad.Float.get_round a i)

@[simp] theorem lane_floor (lib : MathLibrary) (a : Reg B .float) (i : Fin B.lanes) :
    (floor lib a).lane i = Lane.floorLane lib B (a.lane i) := by
  match B with
  | .scalar => rfl
  | .quad => exact congrArg Single.mk (Quad.Float.get_floor a i)

@[simp] theorem lane_ceil (lib : MathLibrary) (a : Reg B .float) (i : Fin B.lanes) :
    (ceil lib a).lane i = Lane.ceilLane lib B (a.lane i) := by
  match B with
  | .scalar => rfl
  | .quad => exact congrArg Single.mk (Quad.Float.get_ceil a i)

/-! ## Conversions -/

@[simp] theorem lane_cast (target : Kind) (a : Reg B k) (i : Fin B.lanes) :
    (cast target a).lane i = Lane.cast k target (a.lane i) := by
  match B, k, target with
  | .scalar, _, _ => rfl
  | .quad, .number .float, .number .float => rfl
  | .quad, .int, .number .float => exact congrArg Single.mk (Quad.Float.get_ofSigned a i)
  | .quad, .uint, .number .float => exact congrArg Single.mk (Quad.Float.get_ofUnsigned a i)
  | .quad, .bool, .number .float =>
    exact (congrArg Single.mk (QuadMask.get_words_and a _ i)).trans (apply_ite Single.mk _ _ _)
  | .quad, .number .float, .int => exact Quad.Float.get_toSigned a i
  | .quad, .number .float, .uint => exact Quad.Float.get_toUnsigned a i
  | .quad, .number (.integer s), .number (.integer s') => cases s <;> cases s' <;> rfl
  | .quad, .bool, .number (.integer s) => cases s <;> exact QuadMask.get_words_and a 1 i
  | .quad, .number .float, .bool => exact Quad.Float.lane_ne_zero a i
  | .quad, .number (.integer s), .bool => cases s <;> exact Quad.Integer.lane_ne_zero a i
  | .quad, .bool, .bool => rfl

@[simp] theorem lane_toBits (a : Reg B .float) (i : Fin B.lanes) :
    (toBits a : Reg B (.number (.integer s))).lane i = Single.bits (a.lane i) := by
  match B with
  | .scalar => rfl
  | .quad => rfl

@[simp] theorem lane_ofBits (a : Reg B (.number (.integer s))) (i : Fin B.lanes) :
    (ofBits a).lane i = Single.mk (a.lane i) := by
  match B with
  | .scalar => rfl
  | .quad => rfl

end Reg

/-! ## Differences across the tile -/

namespace Tile

/-- The left place of the row of a place. -/
def left (i : Fin 4) : Fin 4 := ⟨i / 2 * 2, by omega⟩

/-- The right place of the row of a place. -/
def right (i : Fin 4) : Fin 4 := ⟨i / 2 * 2 + 1, by omega⟩

/-- The upper place of the column of a place. -/
def upper (i : Fin 4) : Fin 4 := ⟨i % 2, by omega⟩

/-- The lower place of the column of a place. -/
def lower (i : Fin 4) : Fin 4 := ⟨i % 2 + 2, by omega⟩

end Tile

/-- A horizontal difference reads the two places of a row. -/
theorem Quad.Float.get_acrossColumns (a : Quad) (i : Fin 4) :
    (acrossColumns a).get i
      = (Single.sub .keep ⟨a.get (Tile.right i)⟩ ⟨a.get (Tile.left i)⟩).bits := by
  refine (get_zip _ _ i _).trans ?_
  match i with
  | 0 => rfl
  | 1 => rfl
  | 2 => rfl
  | 3 => rfl

/-- A vertical difference reads the two places of a column. -/
theorem Quad.Float.get_acrossRows (a : Quad) (i : Fin 4) :
    (acrossRows a).get i
      = (Single.sub .keep ⟨a.get (Tile.lower i)⟩ ⟨a.get (Tile.upper i)⟩).bits := by
  refine (get_zip _ _ i _).trans ?_
  match i with
  | 0 => rfl
  | 1 => rfl
  | 2 => rfl
  | 3 => rfl

end Wavefront
