import Wavefront.Config
import Wavefront.Proofs.Moves

/-!
# Nested guards

Guards may be created on top of each other, with arithmetic in between that raises exception flags
in the word, and are dropped from the last one down. A history is a list of such moves, from any
word that a thread may find itself with; dropping when there is no guard is a move that does
nothing.

* Each guard keeps the word it found, and that is the word of the guards below it, up to the flags.
  `Layered` says so of the whole stack, and every move keeps it (`Layered.move`). So the flush bits
  are set while a guard is there, and no other bit but the flags ever moves.
* A guard that is dropped puts back what it found, whatever was created and dropped on it
  (`leave_scope`): moves that only drop guards of their own leave the stack under them as it is
  (`guards_of_depthAfter`).
* `ground` is the word that would be left if all guards were dropped. Nothing but arithmetic without
  a guard changes it (`ground_move`).

Main statement: `guards_nest`.
-/

namespace Wavefront

/-! ## Bits of a control word -/

namespace ControlWord

variable {c d e : ControlWord} {i : Nat}

/-- The words agree in all bits but the exception flags. -/
def SameControl (c d : ControlWord) : Prop := ∀ i, 6 ≤ i → c.bits.getLsbD i = d.bits.getLsbD i

theorem SameControl.trans (h : c.SameControl d) (h' : d.SameControl e) : c.SameControl e :=
  fun i hi => (h i hi).trans (h' i hi)

theorem getLsbD_raise (c : ControlWord) (flags : BitVec 6) (hi : 6 ≤ i) :
    (c.raise flags).bits.getLsbD i = c.bits.getLsbD i := by
  rw [raise, BitVec.getLsbD_or, BitVec.getLsbD_setWidth, BitVec.getLsbD_of_ge flags i hi,
    Bool.and_false, Bool.or_false]

theorem sameControl_raise (c : ControlWord) (flags : BitVec 6) : (c.raise flags).SameControl c :=
  fun _ hi => getLsbD_raise c flags hi

theorem raise_zero (c : ControlWord) : c.raise 0 = c := by
  rw [raise, show (0 : BitVec 6).setWidth 32 = 0#32 from rfl, BitVec.or_zero]

theorem raise_raise (c : ControlWord) (flags more : BitVec 6) :
    (c.raise flags).raise more = c.raise (flags ||| more) := by
  rw [raise, raise, raise, BitVec.setWidth_or, BitVec.or_assoc]

theorem getLsbD_flushing (c : ControlWord) (i : Nat) :
    c.flushing.bits.getLsbD i = (c.bits.getLsbD i || flushBits.getLsbD i) := by
  rw [flushing, BitVec.getLsbD_or]

/-- Two bits flush. -/
theorem getLsbD_flushBits (i : Nat) : flushBits.getLsbD i = (i == 6 || i == 15) := by
  rcases Nat.lt_or_ge i 32 with h | h
  · have hbits : ∀ i : Fin 32, flushBits.getLsbD i = (i.val == 6 || i.val == 15) := by decide
    exact hbits ⟨i, h⟩
  · rw [BitVec.getLsbD_of_ge _ _ h, beq_false_of_ne (by omega), beq_false_of_ne (by omega),
      Bool.or_self]

end ControlWord

namespace FloatControl

/-! ## Moves -/

/-- What a thread does to its control word. -/
inductive Move
  /-- creates a guard -/
  | enter
  /-- creates a guard, an empty one unless the settings want flushing -/
  | fastMath (settings : Config)
  /-- drops the last guard -/
  | leave
  /-- arithmetic, which may raise any of the exception flags -/
  | arithmetic (flags : BitVec 6)

/-- The control word and its guards after a move. -/
def move (c : FloatControl) : Move → FloatControl
  | .enter => c.enter
  | .fastMath settings => settings.fastMath c
  | .leave => c.leave
  | .arithmetic flags => c.raise flags

/-- The control word and its guards after a history. -/
def moves (c : FloatControl) (ms : List Move) : FloatControl := ms.foldl move c

/-- Some guard is there, and not an empty one. -/
def guarded (c : FloatControl) : Bool := c.guards.any Option.isSome

/-- The move creates a guard, and not an empty one. -/
def Move.creates : Move → Bool
  | enter => true
  | fastMath settings => settings.flushDenormals
  | _ => false

/-- How many guards of their own there are after the moves, where so many were there before them;
none if the moves drop a guard that is not their own. -/
def depthAfter : List Move → Nat → Option Nat
  | [], d => some d
  | .enter :: ms, d => depthAfter ms (d + 1)
  | .fastMath _ :: ms, d => depthAfter ms (d + 1)
  | .leave :: _, 0 => none
  | .leave :: ms, d + 1 => depthAfter ms d
  | .arithmetic _ :: ms, d => depthAfter ms d

/-- The moves drop what they create, and no other guard. -/
def Scoped (ms : List Move) : Prop := depthAfter ms 0 = some 0

instance (ms : List Move) : Decidable (Scoped ms) := inferInstanceAs (Decidable (_ = _))

/-- The flags that the move raises, if no guard is there. -/
def Move.exposedFlags (c : FloatControl) : Move → BitVec 6
  | arithmetic flags => if c.guarded then 0 else flags
  | _ => 0

/-- The flags that a history raises while no guard is there. -/
def exposedFlags (c : FloatControl) : List Move → BitVec 6
  | [] => 0
  | m :: ms => m.exposedFlags c ||| exposedFlags (c.move m) ms

variable {c : FloatControl} {initial word : ControlWord} {stack base : List (Option ControlWord)}
  {m : Move} {ms before inside : List Move} {d d' : Nat}

theorem moves_append (c : FloatControl) (ms ms' : List Move) :
    c.moves (ms ++ ms') = (c.moves ms).moves ms' :=
  List.foldl_append

/-- Settings that want flushing create a guard like any other. -/
theorem move_of_creates (h : m.creates = true) : c.move m = c.enter := by
  cases m with
  | enter => rfl
  | fastMath settings =>
    rw [Move.creates] at h
    rw [move, Config.fastMath, enterIf, h, if_pos rfl]
  | leave => cases h
  | arithmetic => cases h

/-! ## Layers -/

/-- Under every guard is the word it found, and from there on the same holds; under them all is the
initial word. A word above a guard is the one it found with the flush bits set, up to the flags. -/
inductive Layered (initial : ControlWord) : List (Option ControlWord) → ControlWord → Prop
  | ground {word : ControlWord} (hword : word.SameControl initial) : Layered initial [] word
  | empty {word : ControlWord} {stack : List (Option ControlWord)}
      (below : Layered initial stack word) : Layered initial (none :: stack) word
  | guard {word found : ControlWord} {stack : List (Option ControlWord)}
      (below : Layered initial stack found) (hword : word.SameControl found.flushing) :
      Layered initial (some found :: stack) word

theorem Layered.raise (h : Layered initial stack word) (flags : BitVec 6) :
    Layered initial stack (word.raise flags) := by
  induction h with
  | ground hword => exact .ground ((ControlWord.sameControl_raise _ flags).trans hword)
  | empty _ ih => exact .empty ih
  | guard hfound hword => exact .guard hfound ((ControlWord.sameControl_raise _ flags).trans hword)

theorem Layered.enterIf (h : Layered initial c.guards c.word) (flush : Bool) :
    Layered initial (c.enterIf flush).guards (c.enterIf flush).word := by
  cases flush with
  | true => exact .guard h fun _ _ => rfl
  | false => exact .empty h

theorem Layered.leave (h : Layered initial c.guards c.word) :
    Layered initial c.leave.guards c.leave.word := by
  obtain ⟨word, stack⟩ := c
  cases h with
  | ground hword => exact .ground hword
  | empty hstack => exact hstack
  | guard hfound hword => exact hfound

/-- One move keeps the layers. -/
theorem Layered.move (h : Layered initial c.guards c.word) (m : Move) :
    Layered initial (c.move m).guards (c.move m).word := by
  cases m with
  | enter => exact h.enterIf true
  | fastMath settings => exact h.enterIf settings.flushDenormals
  | leave => exact h.leave
  | arithmetic flags => exact h.raise flags

/-- So does a history. -/
theorem Layered.moves (h : Layered initial c.guards c.word) (ms : List Move) :
    Layered initial (c.moves ms).guards (c.moves ms).word := by
  induction ms generalizing c with
  | nil => exact h
  | cons m ms ih => exact ih (h.move m)

/-- Under a guard both flush bits are set, also when empty guards are on it. -/
theorem Layered.getLsbD_of_guarded (h : Layered initial stack word)
    (hguarded : stack.any Option.isSome = true) {i : Nat} (hi : i = 6 ∨ i = 15) :
    word.bits.getLsbD i = true := by
  induction h with
  | ground => cases hguarded
  | empty _ ih => exact ih hguarded
  | guard _ hword =>
    rw [hword i (by omega), ControlWord.getLsbD_flushing, ControlWord.getLsbD_flushBits]
    rcases hi with rfl | rfl <;> exact Bool.or_true _

/-- The other control bits are the initial ones. -/
theorem Layered.getLsbD_of_ne (h : Layered initial stack word) {i : Nat} (hi : 6 < i)
    (h15 : i ≠ 15) : word.bits.getLsbD i = initial.bits.getLsbD i := by
  induction h with
  | ground hword => exact hword i (Nat.le_of_lt hi)
  | empty _ ih => exact ih
  | guard _ hword ih =>
    rw [hword i (Nat.le_of_lt hi), ControlWord.getLsbD_flushing, ControlWord.getLsbD_flushBits, ih,
      beq_false_of_ne (Nat.ne_of_gt hi), beq_false_of_ne h15, Bool.or_self, Bool.or_false]

/-! ## Scopes -/

/-- Moves that only drop guards of their own leave the stack under them. -/
theorem guards_of_depthAfter (word : ControlWord) (stack base : List (Option ControlWord))
    (h : depthAfter ms d = some d') (hd : stack.length = d) :
    ∃ top, top.length = d' ∧
      ((⟨word, stack ++ base⟩ : FloatControl).moves ms).guards = top ++ base := by
  induction ms generalizing word stack d with
  | nil => exact ⟨stack, hd.trans (Option.some.inj h), rfl⟩
  | cons m ms ih =>
    have hcreate (flush : Bool) (h : depthAfter ms (d + 1) = some d') :
        ∃ top, top.length = d' ∧
          (((⟨word, stack ++ base⟩ : FloatControl).enterIf flush).moves ms).guards
            = top ++ base := by
      cases flush with
      | true => exact ih word.flushing (some word :: stack) h (congrArg Nat.succ hd)
      | false => exact ih word (none :: stack) h (congrArg Nat.succ hd)
    cases m with
    | enter => exact hcreate true h
    | fastMath settings => exact hcreate settings.flushDenormals h
    | leave =>
      cases stack with
      | nil =>
        subst hd
        cases h
      | cons guard stack =>
        subst hd
        cases guard with
        | none => exact ih word stack h rfl
        | some found => exact ih found stack h rfl
    | arithmetic flags => exact ih (word.raise flags) stack h hd

/-- A guard that is dropped puts back the word and the stack it found. -/
theorem leave_scope (h : Scoped inside) : ((c.enter.moves inside).move .leave) = c := by
  obtain ⟨top, htop, hguards⟩ :=
    guards_of_depthAfter c.word.flushing [] (some c.word :: c.guards) h rfl
  obtain rfl := List.length_eq_zero_iff.1 htop
  have hguards : (c.enter.moves inside).guards = some c.word :: c.guards := hguards
  rw [move, leave, hguards]

/-! ## The ground -/

/-- What is left of a word when all guards on it are dropped. -/
def groundOf : List (Option ControlWord) → ControlWord → ControlWord
  | [], word => word
  | none :: stack, word => groundOf stack word
  | some found :: stack, _ => groundOf stack found

/-- The word that would be left if all guards were dropped. -/
def ground (c : FloatControl) : ControlWord := groundOf c.guards c.word

theorem groundOf_raise (stack : List (Option ControlWord)) (word : ControlWord) (flags : BitVec 6) :
    groundOf stack (word.raise flags)
      = (groundOf stack word).raise (if stack.any Option.isSome then 0 else flags) := by
  induction stack with
  | nil => rfl
  | cons guard stack ih =>
    cases guard with
    | none => exact ih
    | some found => exact (ControlWord.raise_zero _).symm

theorem ground_of_not_guarded (h : c.guarded = false) : c.ground = c.word := by
  obtain ⟨word, stack⟩ := c
  induction stack with
  | nil => rfl
  | cons guard stack ih =>
    cases guard with
    | none => exact ih h
    | some found => cases h

/-- Nothing but arithmetic changes the ground, and a guard keeps that off. -/
theorem ground_move (c : FloatControl) (m : Move) :
    (c.move m).ground = c.ground.raise (m.exposedFlags c) := by
  obtain ⟨word, stack⟩ := c
  cases m with
  | enter => exact (ControlWord.raise_zero _).symm
  | fastMath settings =>
    refine Eq.trans ?_ (ControlWord.raise_zero _).symm
    rw [move, Config.fastMath]
    cases settings.flushDenormals <;> rfl
  | leave =>
    refine Eq.trans ?_ (ControlWord.raise_zero _).symm
    rcases stack with _ | ⟨_ | found, stack⟩ <;> rfl
  | arithmetic flags => exact groundOf_raise stack word flags

theorem ground_moves (c : FloatControl) (ms : List Move) :
    (c.moves ms).ground = c.ground.raise (c.exposedFlags ms) := by
  induction ms generalizing c with
  | nil => exact (ControlWord.raise_zero _).symm
  | cons m ms ih =>
    refine (ih (c.move m)).trans ?_
    rw [ground_move, ControlWord.raise_raise]
    rfl

/-- Without a guard before and after, a history leaves the flags that it raised without one. -/
theorem word_moves (hbefore : c.guarded = false) (hafter : (c.moves ms).guarded = false) :
    (c.moves ms).word = c.word.raise (c.exposedFlags ms) := by
  rw [← ground_of_not_guarded hafter, ground_moves, ground_of_not_guarded hbefore]

theorem exposedFlags_cons (h : m.exposedFlags c = 0) :
    c.exposedFlags (m :: ms) = (c.move m).exposedFlags ms := by
  rw [exposedFlags, h]
  exact BitVec.zero_or

/-- Under guards all the time, no flag is raised without one. -/
theorem exposedFlags_of_guarded (h : ¬Meets move (fun c _ => c.guarded = false) c ms) :
    c.exposedFlags ms = 0 := by
  induction ms generalizing c with
  | nil => rfl
  | cons m ms ih =>
    obtain ⟨hguarded, hms⟩ := not_or.1 (mt meets_cons.2 h)
    have hm : m.exposedFlags c = 0 := by
      cases m with
      | arithmetic flags => exact if_pos (eq_true_of_ne_false hguarded)
      | _ => rfl
    exact (exposedFlags_cons hm).trans (ih hms)

/-! ## Nesting -/

/-- What holds of the word, at the end of a history and so at every moment of it. -/
structure GuardsNest (start : FloatControl) (ms : List Move) : Prop where
  /-- while a guard is there, both flush bits are set -/
  flushing : (start.moves ms).guarded = true → (start.moves ms).denormals = ⟨true, true⟩
  /-- the flags are bits 0 to 5 and the flush bits are 6 and 15; no other bit is ever different -/
  others : ∀ i, 6 < i → i ≠ 15 → (start.moves ms).word.bits.getLsbD i = start.word.bits.getLsbD i
  /-- dropping a guard puts back the word, and the guards, that were there when it was created -/
  dropped : ∀ before m inside, ms = before ++ m :: inside ++ [.leave] → m.creates = true →
    Scoped inside → start.moves ms = start.moves before
  /-- once the first guard and all that were created since are dropped, the word is what it was
  before that guard was created -/
  allDropped : ∀ before m inside, ms = before ++ m :: inside →
    (start.moves before).guarded = false → m.creates = true →
    ¬Meets move (fun c _ => c.guarded = false) ((start.moves before).move m) inside →
    (start.moves ms).guarded = false → (start.moves ms).word = (start.moves before).word
  /-- between any two moments without a guard, the word has got the flags of the arithmetic that was
  done without one, and nothing else -/
  exposed : ∀ before rest, ms = before ++ rest →
    (start.moves before).guarded = false → (start.moves ms).guarded = false →
    (start.moves ms).word = (start.moves before).word.raise ((start.moves before).exposedFlags rest)

/-- Guards nest, from whatever word. -/
theorem guards_nest (initial : ControlWord) (ms : List Move) : GuardsNest ⟨initial, []⟩ ms := by
  obtain ⟨start, hstart⟩ : ∃ start : FloatControl, start = ⟨initial, []⟩ := ⟨_, rfl⟩
  have hlayered : Layered initial (start.moves ms).guards (start.moves ms).word := by
    rw [hstart]
    exact (Layered.ground fun _ _ => rfl).moves ms
  rw [← hstart]
  refine ⟨fun hguarded => ?_, fun i hi h15 => ?_, ?_, ?_, ?_⟩
  · have hread := hlayered.getLsbD_of_guarded hguarded (.inl rfl)
    have hflush := hlayered.getLsbD_of_guarded hguarded (.inr rfl)
    rw [denormals, ControlWord.denormals, hread, hflush]
  · rw [hstart] at hlayered ⊢
    exact hlayered.getLsbD_of_ne hi h15
  · rintro before m inside rfl hm hinside
    rw [moves_append, moves_append]
    have hentered : (start.moves before).moves (m :: inside)
        = (start.moves before).enter.moves inside :=
      congrArg (fun c => moves c inside) (move_of_creates hm)
    rw [hentered]
    exact leave_scope hinside
  · rintro before m inside rfl hbefore hm hinside hafter
    rw [moves_append] at hafter ⊢
    have hcreates : m.exposedFlags (start.moves before) = 0 := by
      cases m with
      | arithmetic flags => cases hm
      | _ => rfl
    have hexposed := (exposedFlags_cons hcreates).trans (exposedFlags_of_guarded hinside)
    rw [word_moves hbefore hafter, hexposed, ControlWord.raise_zero]
  · rintro before rest rfl hbefore hafter
    rw [moves_append] at hafter ⊢
    exact word_moves hbefore hafter

/-- Three guards, one of them empty, on a word that flushes results already, with arithmetic before,
between and after them. -/
theorem guards_nest_three_deep :
    let start : FloatControl := ⟨⟨0x9f80⟩, []⟩
    let inside : List Move := [.arithmetic 0x10, .fastMath Config.defaults, .arithmetic 0x08,
      .fastMath ⟨false, true, true⟩, .arithmetic 0x02, .leave, .arithmetic 0x01, .leave]
    let all := .arithmetic 0x20 :: .enter :: inside ++ [.leave]
    Scoped inside ∧
      (start.moves (.arithmetic 0x20 :: .enter :: inside)).guarded = true ∧
      (start.moves (.arithmetic 0x20 :: .enter :: inside)).denormals = ⟨true, true⟩ ∧
      (start.moves (.arithmetic 0x20 :: .enter :: inside)).word.bits = 0x9ff9 ∧
      start.moves all = start.moves [.arithmetic 0x20] ∧
      (start.moves all).word.bits = 0x9fa0 := by
  intro start inside all
  have hscoped : Scoped inside := by decide
  have hguarded : (start.moves (.arithmetic 0x20 :: .enter :: inside)).guarded = true := by decide
  exact ⟨hscoped, hguarded, (guards_nest ⟨0x9f80⟩ _).flushing hguarded, by decide,
    (guards_nest ⟨0x9f80⟩ all).dropped [.arithmetic 0x20] .enter inside rfl rfl hscoped, by decide⟩

end FloatControl

end Wavefront
