import Wavefront.Proofs.Trace

/-!
# Retired lanes stay inactive

A loop forgets the retired lanes when it starts and gets them back when it ends, so in between it is
not the mask that keeps a retired lane out, but the frames. The lane was inactive when the loop
started, so it is in the parent of none of the frames that the loop and its body open, and as the
body is balanced it cannot get at any other (`Position.Barred`).

* `Motion.countsAfter` is the balance of loop bodies as it shows in a trace: the conditionals that
  the body of each open loop has open are counted, and no body switches or closes more than that.
  Outside of loops nothing is counted.
* `Position.Barred.go` is one motion, `Position.Barred.run` many.

Main statement: `not_isActive_of_retire`, for all states of all runs with balanced loop bodies, also
of those that never end.
-/

namespace Wavefront

variable {B : Backend} {n : Nat} {σ : Type}

/-! ## Counting conditionals along a trace -/

/-- How many conditionals of its own code has open after a move, where so many were open before it;
none if the move is at a conditional that is not its own. -/
def WriteMask.Move.depthAfter : Move B n → Nat → Option Nat
  | push _, d => some (d + 1)
  | flip, 0 => none
  | flip, d + 1 => some (d + 1)
  | pop, 0 => none
  | pop, d + 1 => some d
  | retire _, d => some d

/-- The conditionals that the body of each open loop has open itself after a motion, innermost loop
first; none if it is not a motion of balanced bodies. -/
def Motion.countsAfter : List Nat → Motion B n → Option (List Nat)
  | counts, enter => some (0 :: counts)
  | [], move _ => some []
  | d :: counts, move m => (m.depthAfter d).map (· :: counts)
  | 0 :: counts, narrow _ => some (0 :: counts)
  | 0 :: counts, leave => some counts
  | _, _ => none

namespace Code

variable {p : Code B n σ}

/-- Code in a loop moves its own conditionals only, which are those above the `b` that the code
around it has open in the same body. -/
theorem readBy_countsAfter_of_depthAfter {d d' : Nat} (hp : p.depthAfter d = some d') (fuel : Nat)
    (f : Flow B n σ) (b : Nat) (counts : List Nat) :
    (p.trace fuel f).ReadBy Motion.countsAfter ((b + d) :: counts) fun _ => (b + d') :: counts := by
  induction p generalizing d d' f b counts with
  | skip =>
    obtain rfl := Option.some.inj hp
    exact Trace.readBy_nil rfl
  | update change =>
    obtain rfl := Option.some.inj hp
    exact Trace.readBy_nil rfl
  | push cond =>
    obtain rfl := Option.some.inj hp
    exact Trace.readBy_motion rfl
  | flip =>
    obtain ⟨rfl, e, rfl⟩ := depthAfter_flip hp
    exact Trace.readBy_motion rfl
  | pop =>
    obtain rfl := depthAfter_pop hp
    exact Trace.readBy_motion rfl
  | retire cond =>
    obtain rfl := Option.some.inj hp
    exact Trace.readBy_motion rfl
  | seq first second ih₁ ih₂ =>
    obtain ⟨e, hfirst, hsecond⟩ := depthAfter_seq hp
    exact (ih₁ hfirst f b counts).andThen fun g => ih₂ hsecond g b counts
  | branch cond first second ih₁ ih₂ =>
    obtain ⟨hfirst, hsecond, rfl⟩ := depthAfter_branch hp
    exact Trace.readBy_branch (fun _ => (b + d' + 1) :: counts) rfl
      (fun g => ih₁ hfirst g (b + d' + 1) counts) (fun w => rfl)
      (fun g => ih₂ hsecond g (b + d' + 1) counts) fun w => rfl
  | loop cond body ih =>
    obtain ⟨hbody, rfl⟩ := depthAfter_loop hp
    -- the body counts from none, and what the code around it has open stays below
    exact Trace.readBy_repeatWhile (fun _ => 0 :: (b + d') :: counts) rfl (fun w c => rfl)
      (fun g => ih hbody g 0 ((b + d') :: counts)) fun w => rfl

/-- Code with balanced loop bodies may do outside of loops what it wants. -/
theorem LoopsBalanced.readBy_countsAfter (hp : p.LoopsBalanced) (fuel : Nat) (f : Flow B n σ) :
    (p.trace fuel f).ReadBy Motion.countsAfter [] fun _ => [] := by
  induction p generalizing f with
  | skip => exact Trace.readBy_nil rfl
  | update change => exact Trace.readBy_nil rfl
  | push cond => exact Trace.readBy_motion rfl
  | flip => exact Trace.readBy_motion rfl
  | pop => exact Trace.readBy_motion rfl
  | retire cond => exact Trace.readBy_motion rfl
  | seq first second ih₁ ih₂ => exact (ih₁ hp.1 f).andThen (ih₂ hp.2)
  | branch cond first second ih₁ ih₂ =>
    exact Trace.readBy_branch (fun _ => []) rfl (ih₁ hp.1) (fun w => rfl) (ih₂ hp.2) fun w => rfl
  | loop cond body ih =>
    exact Trace.readBy_repeatWhile (fun _ => [0]) rfl (fun w c => rfl)
      (fun g => readBy_countsAfter_of_depthAfter hp fuel g 0 []) fun w => rfl

end Code

/-! ## What keeps a lane out -/

namespace WriteMask

variable {w : WriteMask B n} {m : Move B n} {i : Fin (Batch.width B n)}
  {own rest : List (Frame B n)} {d : Nat}

/-- A retired lane is out of the reach of all moves. -/
theorem not_isActive_move (hr : w.IsRetired i) (hi : ¬w.IsActive i) : ¬(w.move m).IsActive i := by
  cases m with
  | push cond => exact fun h => hi (isActive_push.1 h).1
  | retire cond => exact fun h => hi (isActive_retire.1 h).1
  | flip =>
    intro h
    rcases hw : w.frames with _ | ⟨frame, frames⟩
    · exact hi (flip_of_frames_nil hw ▸ h)
    · exact ((isActive_flip hw).1 h).2.2 hr
  | pop =>
    intro h
    rcases hw : w.frames with _ | ⟨frame, frames⟩
    · exact hi (pop_of_frames_nil hw ▸ h)
    · exact ((isActive_pop hw).1 h).2 hr

/-- A lane that is in no parent of the code's own conditionals is out of the reach of its moves. -/
theorem not_isActive_move_of_parents (hframes : w.frames = own ++ rest)
    (hown : ∀ frame ∈ own, frame.parent.lane i = false) (hi : ¬w.IsActive i)
    (hm : m.depthAfter own.length = some d) :
    ¬(w.move m).IsActive i ∧ ∃ own', own'.length = d ∧ (w.move m).frames = own' ++ rest ∧
      ∀ frame ∈ own', frame.parent.lane i = false := by
  cases m with
  | push cond =>
    obtain rfl := Option.some.inj hm
    -- the new frame's parent are the active lanes, and this one is not among them
    refine ⟨fun h => hi (isActive_push.1 h).1, ⟨w.active, cond⟩ :: own, rfl, ?_, ?_⟩
    · exact congrArg _ hframes
    · exact List.forall_mem_cons.2 ⟨Bool.eq_false_iff.2 hi, hown⟩
  | retire cond =>
    obtain rfl := Option.some.inj hm
    exact ⟨fun h => hi (isActive_retire.1 h).1, own, rfl, hframes, hown⟩
  | flip =>
    rcases own with _ | ⟨frame, own⟩
    · cases hm
    · obtain rfl := Option.some.inj hm
      refine ⟨fun h => ?_, frame :: own, rfl, frames_flip.trans hframes, hown⟩
      exact Bool.eq_false_iff.1 (hown frame (.head _)) ((isActive_flip hframes).1 h).1
  | pop =>
    rcases own with _ | ⟨frame, own⟩
    · cases hm
    · obtain rfl := Option.some.inj hm
      obtain ⟨hframe, hown⟩ := List.forall_mem_cons.1 hown
      refine ⟨fun h => ?_, own, rfl, ?_, hown⟩
      · exact Bool.eq_false_iff.1 hframe ((isActive_pop hframes).1 h).1
      · exact frames_pop.trans (congrArg List.tail hframes)

end WriteMask

/-- No way leads back for the lane, as long as `k` loops are open: it is retired in the code that
has just these open, and it was inactive when any of the further loops started, and when the body of
one opened a conditional. -/
inductive Barred (i : Fin (Batch.width B n)) (k : Nat) :
    Mask B n → List (Frame B n) → List (Mask B n) → List Nat → Prop
  | home {retired : Mask B n} {frames : List (Frame B n)} {outer : List (Mask B n)}
      {counts : List Nat} (lane : retired.lane i = true) (level : outer.length = k) :
      Barred i k retired frames outer counts
  | loop {retired retired' : Mask B n} {frames : List (Frame B n)} {outer : List (Mask B n)}
      {counts : List Nat} (own : List (Frame B n)) (frame : Frame B n)
      (parents : ∀ frame' ∈ own, frame'.parent.lane i = false)
      (parent : frame.parent.lane i = false) (below : Barred i k retired' frames outer counts) :
      Barred i k retired (own ++ frame :: frames) (retired' :: outer) (own.length :: counts)

namespace Position

variable {s : Position B n} {m : Motion B n} {i : Fin (Batch.width B n)} {k : Nat}
  {counts counts' : List Nat}

/-- The lane is inactive, and no way leads back. -/
structure Barred (s : Position B n) (i : Fin (Batch.width B n)) (k : Nat) (counts : List Nat) :
    Prop where
  inactive : ¬s.mask.IsActive i
  barred : Wavefront.Barred i k s.mask.retired s.mask.frames s.outer counts

/-- A loop that starts without the lane is one more loop that the lane cannot get into. -/
theorem Barred.enter (h : s.Barred i k counts) : (s.go .enter).Barred i k (0 :: counts) where
  inactive hi := h.inactive (WriteMask.isActive_enterLoop.1 hi)
  barred := .loop [] _ (List.forall_mem_nil _) (Bool.eq_false_iff.2 h.inactive) h.barred

theorem Barred.move {m : WriteMask.Move B n} (h : s.Barred i k counts)
    (hm : (Motion.move m).countsAfter counts = some counts') :
    (s.go (.move m)).Barred i k counts' := by
  obtain ⟨⟨active, retired, frames⟩, outer⟩ := s
  obtain ⟨inactive, barred⟩ := h
  cases barred with
  | home lane level =>
    refine ⟨WriteMask.not_isActive_move lane inactive, .home ?_ level⟩
    exact WriteMask.isRetired_move.2 (.inl lane)
  | loop own frame parents parent below =>
    obtain ⟨d, hd, rfl⟩ := Option.map_eq_some_iff.1 hm
    obtain ⟨hi, own, rfl, hframes, hown⟩ :=
      WriteMask.not_isActive_move_of_parents rfl parents inactive hd
    refine ⟨hi, ?_⟩
    rw [go, hframes]
    exact .loop own frame hown parent below

theorem Barred.narrow {cond : Mask B n} (h : s.Barred i k counts)
    (hm : (Motion.narrow cond).countsAfter counts = some counts') :
    (s.go (.narrow cond)).Barred i k counts' := by
  obtain ⟨⟨active, retired, frames⟩, outer⟩ := s
  obtain ⟨inactive, barred⟩ := h
  refine ⟨fun hi => inactive (WriteMask.isActive_restrict.1 hi).1, ?_⟩
  cases barred with
  | home lane level => exact .home lane level
  | loop own frame parents parent below =>
    rcases own with _ | ⟨frame', own⟩
    · obtain rfl := Option.some.inj hm
      exact .loop [] frame parents parent below
    · cases hm

/-- The end of a loop makes those lanes active that were so when it started, less the retired. -/
theorem Barred.leave (h : s.Barred i k counts)
    (hm : (Motion.leave : Motion B n).countsAfter counts = some counts')
    (hk : k ≤ (s.go .leave).level) : (s.go .leave).Barred i k counts' := by
  obtain ⟨⟨active, retired, frames⟩, outer⟩ := s
  obtain ⟨inactive, barred⟩ := h
  cases barred with
  | home lane level =>
    rcases outer with _ | ⟨retired', outer⟩
    · exact ⟨inactive, .home lane level⟩
    · -- the loop that ends would be the one the lane is retired in
      exact absurd (Nat.le_trans (Nat.le_of_eq level) hk) (Nat.not_succ_le_self outer.length)
  | loop own frame parents parent below =>
    rcases own with _ | ⟨frame', own⟩
    · obtain rfl := Option.some.inj hm
      refine ⟨fun hi => ?_, ?_⟩
      · exact Bool.eq_false_iff.1 parent ((WriteMask.isActive_pop rfl).1 hi).1
      · exact below
    · cases hm

theorem Barred.go (h : s.Barred i k counts) (hm : m.countsAfter counts = some counts')
    (hk : k ≤ (s.go m).level) : (s.go m).Barred i k counts' := by
  cases m with
  | move m => exact h.move hm
  | enter =>
    obtain rfl := Option.some.inj hm
    exact h.enter
  | narrow cond => exact h.narrow hm
  | leave => exact h.leave hm hk

/-- The lane stays out along a sequence of motions that never closes the last of the `k` loops. -/
theorem Barred.run {ms : List (Motion B n)} (h : s.Barred i k counts)
    (hms : ms.foldlM (fun counts m => m.countsAfter counts) counts = some counts')
    (hk : ∀ mid, mid <+: ms → k ≤ (s.run mid).level) : (s.run ms).Barred i k counts' := by
  induction ms generalizing s counts with
  | nil =>
    obtain rfl := Option.some.inj hms
    exact h
  | cons m ms ih =>
    obtain ⟨counts₁, hm, hms⟩ := Option.bind_eq_some_iff.1 hms
    refine ih (h.go hm (hk [m] ⟨ms, rfl⟩)) hms fun mid hmid => ?_
    exact hk (m :: mid) ((List.prefix_cons_inj m).2 hmid)

/-- Only the end of a loop lowers the level. -/
theorem level_le_run {ms : List (Motion B n)} (h : .leave ∉ ms) : s.level ≤ (s.run ms).level := by
  induction ms generalizing s with
  | nil => exact Nat.le_refl _
  | cons m ms ih =>
    refine Nat.le_trans ?_ (ih fun hms => h (.tail _ hms))
    cases m with
    | move m => exact Nat.le_refl _
    | enter => exact Nat.le_succ _
    | narrow cond => exact Nat.le_refl _
    | leave => exact absurd (.head _) h

/-- A lane is barred as soon as it is retired. -/
theorem barred_of_takesOut (h : m.TakesOut s i) : (s.go m).Barred i s.level counts := by
  cases m with
  | move m =>
    have hretired : (s.mask.move m).IsRetired i := WriteMask.isRetired_move.2 (.inr h)
    cases m with
    | retire cond =>
      refine ⟨fun hi => ?_, .home hretired rfl⟩
      exact Bool.eq_false_iff.1 (WriteMask.isActive_retire.1 hi).2 h.2
    | push cond => exact h.elim
    | flip => exact h.elim
    | pop => exact h.elim
  | enter => exact h.elim
  | narrow cond => exact h.elim
  | leave => exact h.elim

end Position

namespace Code

/-- Take any motion `m` of a run that retires a lane, and any later state of the run. If no loop was
open, the lane is inactive there, and if one was, the lane is as long as that loop has not ended.
The states of a run are those along its trace, which ends where the run does. -/
theorem not_isActive_of_retire {p : Code B n σ} (hp : p.LoopsBalanced) {fuel : Nat}
    {f : Flow B n σ} {earlier later rest : List (Motion B n)} {m : Motion B n}
    {i : Fin (Batch.width B n)}
    (htrace : (p.trace fuel f).motions = earlier ++ m :: later ++ rest)
    (hm : m.TakesOut ((Position.ofMask f.mask).run earlier) i) :
    (p.trace fuel f).ending = p.run fuel f ∧
    (((Position.ofMask f.mask).run earlier).level = 0 →
      ¬((Position.ofMask f.mask).run (earlier ++ m :: later)).mask.IsActive i) ∧
    ((∀ mid, mid <+: later → ((Position.ofMask f.mask).run earlier).level ≤
        ((Position.ofMask f.mask).run (earlier ++ m :: mid)).level) →
      ¬((Position.ofMask f.mask).run (earlier ++ m :: later)).mask.IsActive i) := by
  -- what comes after the retirement is still counted, from whatever the count is there
  obtain ⟨counts, hcounts, -⟩ := hp.readBy_countsAfter fuel f
  rw [htrace, List.foldlM_append, List.foldlM_append] at hcounts
  obtain ⟨countsLater, hcounts, -⟩ := Option.bind_eq_some_iff.1 hcounts
  obtain ⟨countsEarlier, -, hcounts⟩ := Option.bind_eq_some_iff.1 hcounts
  obtain ⟨countsThere, -, hcounts⟩ := Option.bind_eq_some_iff.1 hcounts
  have hbarred : (((Position.ofMask f.mask).run earlier).go m).Barred i
      ((Position.ofMask f.mask).run earlier).level countsThere := Position.barred_of_takesOut hm
  simp only [Position.run_append]
  refine ⟨ending_trace p fuel f, fun hlevel => ?_, fun hlevel => ?_⟩
  · exact (hbarred.run hcounts fun mid _ => hlevel ▸ Nat.zero_le _).inactive
  · exact (hbarred.run hcounts hlevel).inactive

/-- A loop from which the first of two lanes is retired at once, while the other stays for ever. The
first one is out in the conditional that follows, and when the next turn is asked for. -/
theorem not_isActive_of_retire_in_loop :
    let all : Mask .scalar 2 := ⟨#v[true, true]⟩
    let first : Mask .scalar 2 := ⟨#v[true, false]⟩
    let i : Fin (Batch.width .scalar 2) := ⟨0, by decide⟩
    let f : Flow .scalar 2 Unit := ⟨.fresh, (), []⟩
    let earlier : List (Motion .scalar 2) := [.enter, .narrow all]
    let m : Motion .scalar 2 := .move (.retire first)
    let later : List (Motion .scalar 2) :=
      [.move (.push first), .move .flip, .move .pop, .narrow all]
    let p : Code .scalar 2 Unit := loop (fun _ => all)
      (seq (retire fun _ _ => first) (branch (fun _ _ => first) skip skip))
    p.LoopsBalanced ∧ (p.trace 1 f).motions = earlier ++ m :: later ++ [] ∧
    m.TakesOut ((Position.ofMask f.mask).run earlier) i ∧
    (∀ mid, mid <+: later → ((Position.ofMask f.mask).run earlier).level ≤
      ((Position.ofMask f.mask).run (earlier ++ m :: mid)).level) ∧
    ¬((Position.ofMask f.mask).run (earlier ++ m :: later)).mask.IsActive i := by
  intro all first i f earlier m later p
  have hp : p.LoopsBalanced := rfl
  have htrace : (p.trace 1 f).motions = earlier ++ m :: later ++ [] := by cbv
  have hm : m.TakesOut ((Position.ofMask f.mask).run earlier) i :=
    ⟨by decide +kernel, by decide +kernel⟩
  have hlevel : ∀ mid, mid <+: later → ((Position.ofMask f.mask).run earlier).level ≤
      ((Position.ofMask f.mask).run (earlier ++ m :: mid)).level := by
    intro mid hmid
    rw [Position.run_append]
    refine Position.level_le_run fun hleave => ?_
    have hlater : .leave ∈ m :: later := by
      rcases List.mem_cons.1 hleave with h | h
      · exact h ▸ .head _
      · exact .tail _ (hmid.subset h)
    simp [m, later] at hlater
  exact ⟨hp, htrace, hm, hlevel, (not_isActive_of_retire hp htrace hm).2.2 hlevel⟩

end Code

end Wavefront
