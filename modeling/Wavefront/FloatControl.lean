import Wavefront.Single.Round

/-!
# Flush-to-zero guards

The control word of the floating-point unit holds, besides six flags that arithmetic raises and
never lowers, a bit that makes it read subnormal operands as zero and a bit that makes it write
subnormal results as zero. A guard sets both bits and keeps the word it found, and dropping it puts
that word back. Guards are dropped in the reverse order of their creation, so they form a stack.

A guard may also be *empty*: one that was asked for with flushing switched off changes nothing and
still takes its place on the stack.
-/

namespace Wavefront

/-- The control word of a floating-point unit. -/
structure ControlWord where
  bits : Word
deriving DecidableEq

namespace ControlWord

/-- The word a thread starts with: all exceptions masked, nothing flushed. -/
def initial : ControlWord := ⟨0x1f80⟩

/-- The two bits that flush: bit 15 for results and bit 6 for operands. -/
def flushBits : Word := 0x8040

/-- The word with both flush bits set. -/
def flushing (c : ControlWord) : ControlWord := ⟨c.bits ||| flushBits⟩

/-- The word after arithmetic has raised exception flags. -/
def raise (c : ControlWord) (flags : BitVec 6) : ControlWord := ⟨c.bits ||| flags.setWidth 32⟩

/-- How arithmetic under this word treats subnormal values. -/
def denormals (c : ControlWord) : Denormals := ⟨c.bits.getLsbD 6, c.bits.getLsbD 15⟩

end ControlWord

/-- The control word in force and the guards on it. -/
structure FloatControl where
  word : ControlWord
  /-- the words that the guards found, the last guard first; `none` for an empty guard -/
  guards : List (Option ControlWord)

namespace FloatControl

/-- A thread without guards. -/
def fresh : FloatControl := ⟨.initial, []⟩

/-- Creates a guard. -/
def enter (c : FloatControl) : FloatControl := ⟨c.word.flushing, some c.word :: c.guards⟩

/-- Creates a guard if flushing is wanted, and an empty one otherwise. -/
def enterIf (c : FloatControl) (flush : Bool) : FloatControl :=
  if flush then c.enter else { c with guards := none :: c.guards }

/-- Drops the last guard, if there is one. -/
def leave (c : FloatControl) : FloatControl :=
  match c.guards with
  | [] => c
  | none :: guards => { c with guards }
  | some word :: guards => ⟨word, guards⟩

/-- Arithmetic that raises exception flags. -/
def raise (c : FloatControl) (flags : BitVec 6) : FloatControl :=
  { c with word := c.word.raise flags }

/-- How arithmetic treats subnormal values now. -/
def denormals (c : FloatControl) : Denormals := c.word.denormals

end FloatControl

end Wavefront
