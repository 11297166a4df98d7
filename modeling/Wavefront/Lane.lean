import Wavefront.Kind
import Wavefront.Fault
import Wavefront.Single.Convert
import Wavefront.Single.Text

/-!
# Arithmetic of one lane

What every operation means on a single lane. The one-lane backend is these functions; the four-lane
backend computes the same ones by other means, four at a time.

Integer arithmetic wraps. Integer division cuts toward zero and refuses a zero divisor; its one
overflow wraps too. Shift counts past the width move every bit out, and a signed right shift fills
with the sign.
-/

namespace Wavefront.Lane

/-! ## Comparisons -/

/-- Equality of numbers and of truth values. -/
def eq (mode : Denormals) : {k : Kind} → k.Lane → k.Lane → Bool
  | .number .float, x, y => Single.eq mode x y
  | .number (.integer _), x, y => x == y
  | .bool, x, y => x == y

/-- Less than, in the order of the kind. -/
def lt (mode : Denormals) : {t : Number} → (Kind.number t).Lane → (Kind.number t).Lane → Bool
  | .float, x, y => Single.lt mode x y
  | .integer .signed, x, y => BitVec.slt x y
  | .integer .unsigned, x, y => BitVec.ult x y

/-- Less than or equal, in the order of the kind. -/
def le (mode : Denormals) : {t : Number} → (Kind.number t).Lane → (Kind.number t).Lane → Bool
  | .float, x, y => Single.le mode x y
  | .integer .signed, x, y => BitVec.sle x y
  | .integer .unsigned, x, y => BitVec.ule x y

/-- The first value if it is less, else the second: also when they are equal, or unordered. -/
def min {t : Number} (x y : (Kind.number t).Lane) : (Kind.number t).Lane :=
  if lt .keep x y then x else y

/-- The first value if it is greater, else the second: also when they are equal, or unordered. -/
def max {t : Number} (x y : (Kind.number t).Lane) : (Kind.number t).Lane :=
  if lt .keep y x then x else y

/-! ## Arithmetic -/

/-- Sum. -/
def add (mode : Denormals) :
    {t : Number} → (Kind.number t).Lane → (Kind.number t).Lane → (Kind.number t).Lane
  | .float, x, y => Single.add mode x y
  | .integer _, x, y => BitVec.add x y

/-- Difference. -/
def sub (mode : Denormals) :
    {t : Number} → (Kind.number t).Lane → (Kind.number t).Lane → (Kind.number t).Lane
  | .float, x, y => Single.sub mode x y
  | .integer _, x, y => BitVec.sub x y

/-- Product. -/
def mul (mode : Denormals) :
    {t : Number} → (Kind.number t).Lane → (Kind.number t).Lane → (Kind.number t).Lane
  | .float, x, y => Single.mul mode x y
  | .integer _, x, y => BitVec.mul x y

/-- Integer quotient, toward zero. -/
def quotient (s : Signedness) (x y : Word) : Except Fault Word :=
  if y = 0 then .error .divisionByZero
  else .ok (match s with
    | .signed => BitVec.sdiv x y
    | .unsigned => BitVec.udiv x y)

/-- Integer remainder, with the sign of the dividend. -/
def remainder (s : Signedness) (x y : Word) : Except Fault Word :=
  if y = 0 then .error .remainderByZero
  else .ok (match s with
    | .signed => BitVec.srem x y
    | .unsigned => BitVec.umod x y)

/-- Left shift. -/
def shiftLeft (x : Word) (count : Word) : Word := if count.toNat < 32 then x <<< count.toNat else 0

/-- Right shift: arithmetic for signed words, where a count past the width acts like 31. -/
def shiftRight (s : Signedness) (x : Word) (count : Word) : Word :=
  match s with
  | .signed => x.sshiftRight (Nat.min count.toNat 31)
  | .unsigned => if count.toNat < 32 then x >>> count.toNat else 0

/-! ## Conversions -/

/-- True as the word 1 and false as the word 0. -/
def wordOfBool (b : Bool) : Word := if b then 1 else 0

/-- True as 1 and false as 0. -/
def singleOfBool (b : Bool) : Single := if b then Single.one else Single.zero false

/-- The value of an integer lane. -/
def toInt (s : Signedness) (x : Word) : Int :=
  match s with
  | .signed => x.toInt
  | .unsigned => x.toNat

/-- The value carried to another kind. Numbers are true when they are not zero, so NaN is true;
floats are cut and clamped to integers; integers of the other sign keep their word. -/
def cast : (source target : Kind) → source.Lane → target.Lane
  | .number .float, .number .float, x => x
  | .number (.integer s), .number .float, x => Single.ofInt (toInt s x)
  | .bool, .number .float, b => singleOfBool b
  | .number .float, .number (.integer .signed), x => Single.toSigned x
  | .number .float, .number (.integer .unsigned), x => Single.toUnsigned x
  | .number (.integer _), .number (.integer _), x => x
  | .bool, .number (.integer _), b => wordOfBool b
  | .number .float, .bool, x => !Single.eq .keep x (Single.zero false)
  | .number (.integer _), .bool, x => x != 0
  | .bool, .bool, b => b

/-! ## Text -/

/-- The text of a lane. -/
def text : (k : Kind) → k.Lane → String
  | .number .float, x => Single.text x
  | .number (.integer s), x => toString (toInt s x)
  | .bool, b => toString b

/-- Values in brackets, separated by commas. -/
def listText (k : Kind) (values : List k.Lane) : String :=
  "[" ++ ", ".intercalate (values.map (text k)) ++ "]"

end Wavefront.Lane
