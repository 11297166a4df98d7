import Wavefront.Proofs.Code
import Wavefront.Proofs.Moves

/-!
# Traces

A run of code takes its write mask through many states that no caller sees. `Code.trace` lists what
it does to the mask on the way, motion by motion, with branches and loops taken apart into what they
are made of. A run that needs more fuel than it is given has a trace too, which ends where it was
cut off; so the traces for all fuels cover also the loops that never end.

* A `Position` is the mask in the midst of a run, with the retired lanes that the open loops have
  put aside. `Position.run` replays motions, and every state of a run is the replay of an initial
  piece of its trace.
* The trace is the run: it ends where the run ends (`ending_trace`), and replayed from the mask at
  the start it arrives at the mask at the end (`run_trace`).
* `isRetired_home`: the lanes that count as retired outside of all loops are those that a `retire`
  outside of all loops took out. No loop adds to them or forgets one.
-/

namespace Wavefront

/-! ## Motions -/

/-- What running code does to a write mask: a move, or a part of a loop. -/
inductive Motion (B : Backend) (n : Nat)
  | move (m : WriteMask.Move B n)
  /-- a loop starts -/
  | enter
  /-- the lanes that want another turn of the loop go on -/
  | narrow (cond : Mask B n)
  /-- a loop ends -/
  | leave

/-- The write mask in the midst of a run. -/
structure Position (B : Backend) (n : Nat) where
  mask : WriteMask B n
  /-- the retired lanes that the open loops have put aside, innermost loop first -/
  outer : List (Mask B n)

namespace Position

variable {B : Backend} {n : Nat}

/-- A mask outside of all loops. -/
def ofMask (w : WriteMask B n) : Position B n := ⟨w, []⟩

/-- How many loops are open. -/
def level (s : Position B n) : Nat := s.outer.length

/-- The position after a motion. -/
def go (s : Position B n) : Motion B n → Position B n
  | .move m => { s with mask := s.mask.move m }
  | .enter => ⟨s.mask.enterLoop, s.mask.retired :: s.outer⟩
  | .narrow cond => { s with mask := s.mask.restrict cond }
  | .leave =>
    match s.outer with
    | [] => s
    | retired :: outer => ⟨(s.mask.reinstate retired).pop, outer⟩

/-- Replays motions. -/
def run (s : Position B n) (ms : List (Motion B n)) : Position B n := ms.foldl go s

theorem run_append (s : Position B n) (ms ms' : List (Motion B n)) :
    s.run (ms ++ ms') = (s.run ms).run ms' :=
  List.foldl_append

end Position

/-- The motion retires the lane. -/
def Motion.TakesOut {B : Backend} {n : Nat} (s : Position B n) (i : Fin (Batch.width B n)) :
    Motion B n → Prop
  | move m => m.TakesOut s.mask i
  | _ => False

/-! ## Lanes retired outside of loops -/

namespace Position

variable {B : Backend} {n : Nat} {s : Position B n} {m : Motion B n}
  {i : Fin (Batch.width B n)}

/-- The retired lanes of the code outside of all loops: those that the outermost open loop has put
aside, or the mask's own. -/
def home (s : Position B n) : Mask B n := s.outer.getLastD s.mask.retired

/-- Some motion outside of all loops took the lane out. -/
def RetiresOutside (s : Position B n) (ms : List (Motion B n)) (i : Fin (Batch.width B n)) : Prop :=
  Meets go (fun t m => t.level = 0 ∧ m.TakesOut t i) s ms

theorem home_go :
    (s.go m).home.lane i = true ↔ s.home.lane i = true ∨ (s.level = 0 ∧ m.TakesOut s i) := by
  obtain ⟨w, outer⟩ := s
  cases m with
  | move m =>
    cases outer with
    -- outside of loops the retired lanes are the mask's own; in a loop they are out of reach
    | nil => exact WriteMask.isRetired_move.trans (or_congr_right (and_iff_right rfl).symm)
    | cons retired outer => exact (or_iff_left fun h => Nat.succ_ne_zero _ h.1).symm
  | enter =>
    have h : (Position.go ⟨w, outer⟩ .enter).home = home ⟨w, outer⟩ := by
      cases outer <;> rfl
    rw [h]
    exact (or_iff_left And.right).symm
  | narrow cond => exact (or_iff_left And.right).symm
  | leave =>
    have h : (Position.go ⟨w, outer⟩ .leave).home = home ⟨w, outer⟩ := by
      rcases outer with _ | ⟨retired, _ | ⟨retired', outer⟩⟩
      · rfl
      · exact WriteMask.retired_pop
      · rfl
    rw [h]
    exact (or_iff_left And.right).symm

theorem isRetired_home (ms : List (Motion B n)) :
    (s.run ms).home.lane i = true ↔ s.home.lane i = true ∨ s.RetiresOutside ms i := by
  induction ms generalizing s with
  | nil => exact (or_iff_left not_meets_nil).symm
  | cons m ms ih =>
    have h := ih (s := s.go m)
    rw [home_go, or_assoc] at h
    have hcons : s.RetiresOutside (m :: ms) i ↔
        (s.level = 0 ∧ m.TakesOut s i) ∨ (s.go m).RetiresOutside ms i := meets_cons
    rw [← hcons] at h
    exact h

end Position

/-! ## Traces -/

/-- What a run has done to its mask so far. -/
structure Trace (B : Backend) (n : Nat) (σ : Type) where
  motions : List (Motion B n)
  /-- where the run ended, unless it was cut off -/
  ending : Option (Flow B n σ)

namespace Trace

variable {B : Backend} {n : Nat} {σ : Type}

/-- The trace of a run that made these motions and ended. -/
def done (motions : List (Motion B n)) (f : Flow B n σ) : Trace B n σ := ⟨motions, some f⟩

/-- Goes on where a trace ended. -/
def andThen (t : Trace B n σ) (code : Flow B n σ → Trace B n σ) : Trace B n σ :=
  match t.ending with
  | none => t
  | some f => ⟨t.motions ++ (code f).motions, (code f).ending⟩

/-- Runs code if some lane is active. -/
def whenActive (code : Flow B n σ → Trace B n σ) (f : Flow B n σ) : Trace B n σ :=
  if f.mask.anyActive then code f else done [] f

/-- The turns of a loop, with the question that ends them. -/
def turns (cond : σ → Mask B n) (body : Flow B n σ → Trace B n σ) :
    (fuel : Nat) → (taken : Nat) → Flow B n σ → Trace B n σ
  | fuel, taken, f =>
    let g := f.restrict (cond f.state)
    if g.mask.anyActive then
      match fuel with
      | 0 => ⟨[.narrow (cond f.state)], none⟩
      | fuel + 1 =>
        ((done [.narrow (cond f.state)] g).andThen body).andThen (turns cond body fuel (taken + 1))
    else done [.narrow (cond f.state)] (g.note (.loopFinished taken))

/-- A branch, from its arms. -/
def branch (cond : Mask B n) (first second : Flow B n σ → Trace B n σ) (f : Flow B n σ) :
    Trace B n σ :=
  let start := done [.move (.push cond)] (f.push cond)
  let switch (f : Flow B n σ) := done [.move .flip] f.flip
  let close (f : Flow B n σ) := done [.move .pop] f.pop
  ((start.andThen (whenActive first)).andThen fun f =>
    (switch f).andThen (whenActive second)).andThen close

/-- A loop, from its body. -/
def repeatWhile (fuel : Nat) (cond : σ → Mask B n) (body : Flow B n σ → Trace B n σ)
    (f : Flow B n σ) : Trace B n σ :=
  ((done [.enter] { f with mask := f.mask.enterLoop }).andThen (turns cond body fuel 0)).andThen
    fun g => done [.leave] (Flow.pop { g with mask := g.mask.reinstate f.mask.retired })

variable {t : Trace B n σ} {code first second : Flow B n σ → Trace B n σ} {f g : Flow B n σ}

/-! ## Where a trace ends -/

theorem ending_andThen : (t.andThen code).ending = t.ending.bind fun f => (code f).ending := by
  obtain ⟨motions, _ | f⟩ := t <;> rfl

theorem ending_whenActive :
    (whenActive code f).ending = f.whenActive fun f => (code f).ending := by
  rw [whenActive, Flow.whenActive]
  split <;> rfl

theorem ending_turns {cond : σ → Mask B n} {fuel taken : Nat} :
    (turns cond code fuel taken f).ending =
      (Flow.turns cond (fun f => (code f).ending) fuel taken f).map
        fun r => r.1.note (.loopFinished r.2) := by
  induction fuel generalizing f taken with
  | zero =>
    rw [turns, Flow.turns]
    split <;> rfl
  | succ fuel ih =>
    rw [turns, Flow.turns]
    split
    · rw [ending_andThen, ending_andThen]
      change (code _).ending.bind _ = ((code _).ending.bind _).map _
      rw [Option.map_bind]
      exact congrArg _ (funext fun g => ih)
    · rfl

theorem ending_branch {cond : Mask B n} :
    (branch cond first second f).ending =
      f.branch cond (fun f => (first f).ending) fun f => (second f).ending := by
  rw [branch, Flow.branch]
  simp only [ending_andThen, ending_whenActive, done, Option.bind_some]
  rw [Option.bind_assoc]
  rfl

theorem ending_repeatWhile {fuel : Nat} {cond : σ → Mask B n} :
    (repeatWhile fuel cond code f).ending = f.repeatWhile fuel cond fun f => (code f).ending := by
  rw [repeatWhile, Flow.repeatWhile]
  simp only [ending_andThen, ending_turns, done, Option.bind_some, Option.bind_map]
  rfl

/-! ## Reading a trace -/

/-- An automaton that reads the motions of the trace from the state `a` on is never stuck, and where
the trace ended it is in the state that `target` has for the mask there. -/
def ReadBy {α : Type} (step : α → Motion B n → Option α) (a : α) (target : WriteMask B n → α)
    (t : Trace B n σ) : Prop :=
  ∃ b, t.motions.foldlM step a = some b ∧ ∀ g, t.ending = some g → b = target g.mask

variable {α : Type} {step : α → Motion B n → Option α} {a : α} {outside inside : WriteMask B n → α}

theorem readBy_nil (h : a = outside f.mask) : (done [] f).ReadBy step a outside := by
  refine ⟨a, rfl, fun g hg => ?_⟩
  obtain rfl := Option.some.inj hg
  exact h

/-- A trace of one motion. -/
theorem readBy_motion {m : Motion B n} (h : step a m = some (outside f.mask)) :
    (done [m] f).ReadBy step a outside := by
  refine ⟨outside f.mask, ?_, fun g hg => ?_⟩
  · change (step a m).bind pure = _
    rw [h]
    rfl
  · obtain rfl := Option.some.inj hg
    rfl

theorem ReadBy.andThen (ht : t.ReadBy step a inside)
    (hcode : ∀ f, (code f).ReadBy step (inside f.mask) outside) :
    (t.andThen code).ReadBy step a outside := by
  obtain ⟨motions, _ | f⟩ := t
  · obtain ⟨b, hb, -⟩ := ht
    exact ⟨b, hb, fun g hg => absurd hg (Option.some_ne_none g).symm⟩
  · obtain ⟨b, hb, hend⟩ := ht
    obtain rfl := hend f rfl
    -- the automaton goes on from where the first trace left it
    obtain ⟨c, hc, hend⟩ := hcode f
    have hmotions : (Trace.andThen ⟨motions, some f⟩ code).motions.foldlM step a = some c := by
      rw [Trace.andThen, List.foldlM_append, hb]
      exact hc
    exact ⟨c, hmotions, hend⟩

theorem readBy_whenActive (hcode : ∀ f, (code f).ReadBy step (inside f.mask) inside)
    (f : Flow B n σ) : (whenActive code f).ReadBy step (inside f.mask) inside := by
  rw [whenActive]
  split
  · exact hcode f
  · exact readBy_nil rfl

theorem readBy_branch (inside : WriteMask B n → α) {cond : Mask B n}
    (hpush : step a (.move (.push cond)) = some (inside (f.mask.push cond)))
    (hfirst : ∀ f, (first f).ReadBy step (inside f.mask) inside)
    (hflip : ∀ w, step (inside w) (.move .flip) = some (inside w.flip))
    (hsecond : ∀ f, (second f).ReadBy step (inside f.mask) inside)
    (hpop : ∀ w, step (inside w) (.move .pop) = some (outside w.pop)) :
    (branch cond first second f).ReadBy step a outside := by
  have hstart : (done [.move (.push cond)] (f.push cond)).ReadBy step a inside :=
    readBy_motion hpush
  have hswitch : ∀ g : Flow B n σ, (done [.move .flip] g.flip).ReadBy step (inside g.mask) inside :=
    fun g => readBy_motion ((hflip g.mask).trans (by rw [Flow.mask_flip]))
  have hend : ∀ g : Flow B n σ, (done [.move .pop] g.pop).ReadBy step (inside g.mask) outside :=
    fun g => readBy_motion ((hpop g.mask).trans (by rw [Flow.mask_pop]))
  exact ((hstart.andThen (readBy_whenActive hfirst)).andThen fun g =>
    (hswitch g).andThen (readBy_whenActive hsecond)).andThen hend

theorem readBy_turns {cond : σ → Mask B n}
    (hnarrow : ∀ w c, step (inside w) (.narrow c) = some (inside (w.restrict c)))
    (hcode : ∀ f, (code f).ReadBy step (inside f.mask) inside) (fuel taken : Nat)
    (f : Flow B n σ) : (turns cond code fuel taken f).ReadBy step (inside f.mask) inside := by
  have hask : ∀ f g : Flow B n σ, g.mask = f.mask.restrict (cond f.state) →
      (done [.narrow (cond f.state)] g).ReadBy step (inside f.mask) inside :=
    fun f g hg => readBy_motion ((hnarrow f.mask (cond f.state)).trans (by rw [hg]))
  induction fuel generalizing f taken with
  | zero =>
    rw [turns]
    split
    · obtain ⟨b, hb, -⟩ := hask f (f.restrict (cond f.state)) rfl
      exact ⟨b, hb, fun g hg => absurd hg (Option.some_ne_none g).symm⟩
    · exact hask f _ rfl
  | succ fuel ih =>
    rw [turns]
    split
    · exact ((hask f _ rfl).andThen hcode).andThen (ih (taken + 1))
    · exact hask f _ rfl

theorem readBy_repeatWhile (inside : WriteMask B n → α) {cond : σ → Mask B n} {fuel : Nat}
    (henter : step a .enter = some (inside f.mask.enterLoop))
    (hnarrow : ∀ w c, step (inside w) (.narrow c) = some (inside (w.restrict c)))
    (hcode : ∀ f, (code f).ReadBy step (inside f.mask) inside)
    (hleave : ∀ w, step (inside w) .leave = some (outside (w.reinstate f.mask.retired).pop)) :
    (repeatWhile fuel cond code f).ReadBy step a outside := by
  have hstart : (done [.enter] { f with mask := f.mask.enterLoop }).ReadBy step a inside :=
    readBy_motion henter
  refine (hstart.andThen (readBy_turns hnarrow hcode fuel 0)).andThen fun g => ?_
  refine readBy_motion ((hleave g.mask).trans ?_)
  rw [Flow.mask_pop]

end Trace

/-! ## The trace of code -/

namespace Code

variable {B : Backend} {n : Nat} {σ : Type}

/-- Runs code and notes every motion of the mask. -/
def trace (fuel : Nat) : Code B n σ → Flow B n σ → Trace B n σ
  | skip, f => .done [] f
  | update change, f => .done [] { f with state := change f.mask f.state }
  | push cond, f => .done [.move (.push (cond f.mask f.state))] (f.push (cond f.mask f.state))
  | flip, f => .done [.move .flip] f.flip
  | pop, f => .done [.move .pop] f.pop
  | retire cond, f =>
    .done [.move (.retire (cond f.mask f.state))]
      { f with mask := f.mask.retire (cond f.mask f.state) }
  | seq first second, f => (first.trace fuel f).andThen (second.trace fuel)
  | branch cond first second, f =>
    .branch (cond f.mask f.state) (first.trace fuel) (second.trace fuel) f
  | loop cond body, f => .repeatWhile fuel cond (body.trace fuel) f

/-- The trace ends where the run does, and is cut off where the run wants more fuel. -/
theorem ending_trace (p : Code B n σ) (fuel : Nat) (f : Flow B n σ) :
    (p.trace fuel f).ending = p.run fuel f := by
  induction p generalizing f with
  | skip => rfl
  | update change => rfl
  | push cond => rfl
  | flip => rfl
  | pop => rfl
  | retire cond => rfl
  | seq first second ih₁ ih₂ =>
    rw [trace, Trace.ending_andThen, ih₁, run]
    exact congrArg _ (funext ih₂)
  | branch cond first second ih₁ ih₂ =>
    have h₁ : (fun f => (first.trace fuel f).ending) = first.run fuel := funext ih₁
    have h₂ : (fun f => (second.trace fuel f).ending) = second.run fuel := funext ih₂
    rw [trace, Trace.ending_branch, h₁, h₂, run]
  | loop cond body ih =>
    have h : (fun f => (body.trace fuel f).ending) = body.run fuel := funext ih
    rw [trace, Trace.ending_repeatWhile, h, run]

/-- With whatever loops open around it, the replay of the trace arrives where the trace ended. -/
theorem readBy_go (p : Code B n σ) (fuel : Nat) (f : Flow B n σ) (outer : List (Mask B n)) :
    (p.trace fuel f).ReadBy (fun s m => pure (Position.go s m)) (Position.mk f.mask outer)
      (Position.mk · outer) := by
  induction p generalizing f outer with
  | skip => exact Trace.readBy_nil rfl
  | update change => exact Trace.readBy_nil rfl
  | push cond => exact Trace.readBy_motion rfl
  | flip =>
    refine Trace.readBy_motion ?_
    rw [Flow.mask_flip]
    rfl
  | pop =>
    refine Trace.readBy_motion ?_
    rw [Flow.mask_pop]
    rfl
  | retire cond => exact Trace.readBy_motion rfl
  | seq first second ih₁ ih₂ => exact (ih₁ f outer).andThen fun g => ih₂ g outer
  | branch cond first second ih₁ ih₂ =>
    exact Trace.readBy_branch (Position.mk · outer) rfl (fun g => ih₁ g outer) (fun w => rfl)
      (fun g => ih₂ g outer) fun w => rfl
  | loop cond body ih =>
    exact Trace.readBy_repeatWhile (Position.mk · (f.mask.retired :: outer)) rfl (fun w c => rfl)
      (fun g => ih g (f.mask.retired :: outer)) fun w => rfl

/-- Replayed from the mask at the start, a finished trace gives the mask at the end. -/
theorem run_trace {p : Code B n σ} {fuel : Nat} {f g : Flow B n σ} (h : p.run fuel f = some g) :
    (Position.ofMask f.mask).run (p.trace fuel f).motions = Position.ofMask g.mask := by
  obtain ⟨s, hs, hend⟩ := readBy_go p fuel f []
  rw [List.foldlM_pure] at hs
  exact (Option.some.inj hs).trans (hend g ((ending_trace p fuel f).trans h))

end Code

end Wavefront
