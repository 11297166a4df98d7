/-!
# Words

The 32-bit words that lanes, masks, control words and feature sets are made of.
-/

namespace Wavefront

/-- A 32-bit word: an integer lane of either sign, a mask lane, or the pattern of a float. -/
abbrev Word := BitVec 32

/-- All bits set for true, none for false. -/
def fill (b : Bool) : Word := if b then BitVec.allOnes 32 else 0

/-- A number in base 16, with its mark. -/
def hexadecimal (n : Nat) : String := "0x" ++ String.ofList (Nat.toDigits 16 n)

end Wavefront
