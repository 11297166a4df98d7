import Wavefront.Word
import Wavefront.Json.Token
import Wavefront.Text.Blank
import Wavefront.Text.Cut

/-!
# Processor features

A set of vector extensions, one bit for each. Bits that no extension is known for are kept: in a
text they follow the names as one hexadecimal number.

A text lists names, or hexadecimal numbers, between bars. Blanks around an entry do not count, but
an entry may not be empty unless the whole text is.
-/

namespace Wavefront

/-- A set of vector extensions. -/
structure Features where
  bits : Word
deriving DecidableEq

namespace Features

/-- No extension. -/
def none : Features := ⟨0⟩

/-- The known extensions, in the order of their bits. -/
def known : List (String × Features) :=
  [("SSE2", ⟨1⟩), ("SSE41", ⟨2⟩), ("AVX", ⟨4⟩), ("AVX2", ⟨8⟩), ("FMA", ⟨16⟩), ("AVX512F", ⟨32⟩),
    ("NEON", ⟨256⟩)]

/-- What the four-lane backend relies on. -/
def required : Features := ⟨1⟩

/-- Every known extension. -/
def allKnown : Features := ⟨known.foldl (fun bits entry => bits ||| entry.2.bits) 0⟩

/-- The extensions of both sets. -/
def union (a b : Features) : Features := ⟨a.bits ||| b.bits⟩

/-- Every extension of `b` is one of `a`. -/
def contains (a b : Features) : Bool := a.bits &&& b.bits == b.bits

/-- No extension and no unknown bit. -/
def isNone (f : Features) : Bool := f.bits == 0

/-- The names of the known extensions in the set. -/
def names (f : Features) : List String :=
  (known.filter fun entry => f.contains entry.2).map Prod.fst

/-- The bits that no extension is known for. -/
def unknownBits (f : Features) : Word := f.bits &&& ~~~allKnown.bits

/-! ## Text -/

/-- The names and the unknown bits, between bars. The empty set has an empty text. -/
def text (f : Features) : String :=
  let rest := if f.unknownBits = 0 then [] else [hexadecimal f.unknownBits.toNat]
  " | ".intercalate (f.names ++ rest)

/-- The text for a log. The empty set is written as a number. -/
def logText (f : Features) : String :=
  "CpuFeatures(" ++ (if f.isNone then hexadecimal 0 else f.text) ++ ")"

/-- The JSON text: a string. -/
def toJson (f : Features) : String := "\"" ++ f.text ++ "\""

/-! ## Reading -/

/-- Reads a hexadecimal number of at most 32 bits, with an optional plus sign. -/
def readBits (cs : List Char) : Option Word := do
  let digits := match cs with
    | '+' :: rest => rest
    | _ => cs
  if digits.isEmpty then failure
  let value ← digits.foldlM (fun value c => do return value * 16 + (← Json.hexDigit c)) 0
  if value < 0x100000000 then return BitVec.ofNat 32 value else failure

/-- Reads one entry: a hexadecimal number behind its mark, or a name. -/
def readEntry (cs : List Char) : Option Features :=
  match cs with
  | '0' :: 'x' :: digits => (readBits digits).map Features.mk
  | _ => known.lookup (String.ofList cs)

/-- Reads a set of features. -/
def ofText? (s : String) : Option Features :=
  let cs := Text.trim s.toList
  if cs.isEmpty then some none
  else do
    let sets ← (Text.cut '|' s.toList).mapM fun entry => readEntry (Text.trim entry)
    return sets.foldl union none

open Json in
/-- Reads a JSON text that is a string with a set of features. -/
def ofJson (text : String) : Except Problem Features :=
  match tokens text.toList with
  | [] => .error .truncated
  | .string content _ :: rest => do
    let content ← content
    match ofText? content with
    | Option.none => throw .unsuitable
    | some f => if rest.isEmpty then return f else throw .malformed
  | token :: _ => .error token.unwanted

end Features

end Wavefront
