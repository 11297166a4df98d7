import Wavefront.Proofs.Trace

/-!
# Balanced code restores the mask

Balanced code hands back the conditionals it found, and of the lanes it keeps all that it did not
retire. `Since v own w` says how a mask `w` relates to the mask `v` that some code started from,
while `own` are the conditionals the code has opened and not closed yet. It holds at the start,
every move of the code keeps it, and when all is closed again it says which lanes are active: the
old ones that are not retired.

* `Since.first_lanes` and `Since.second_lanes` follow a lane through a conditional: what it is in
  the arm it takes, it is afterwards, whatever the other arm does.
* A loop is stricter. It gives back the very mask it found (`repeatWhile_restores`), retired lanes
  included, since it closes a frame of its own with the old retired lanes.

Main statement: `branch_and_loop_restore`, for all balanced arms and bodies.
-/

namespace Wavefront

variable {B : Backend} {n : Nat} {σ : Type}

namespace WriteMask

variable {u v w : WriteMask B n} {own : List (Frame B n)} {frame : Frame B n} {cond : Mask B n}
  {i : Fin (Batch.width B n)}

/-! ## What code may do to a mask -/

/-- Code that started from `v` has come to `w`, where its own conditionals `own` are open. -/
structure Since (v : WriteMask B n) (own : List (Frame B n)) (w : WriteMask B n) : Prop where
  frames : w.frames = own ++ v.frames
  separate : w.Separate
  /-- no lane is forgotten to be retired -/
  mono : ∀ i, v.IsRetired i → w.IsRetired i
  /-- only lanes that were active can have been retired -/
  retired : ∀ i, w.IsRetired i → v.IsRetired i ∨ v.IsActive i
  active : ∀ i, w.IsActive i → v.IsActive i
  parents : ∀ frame ∈ own, ∀ i, frame.parent.lane i = true → v.IsActive i
  /-- outside of its own conditionals the code has lost no lane but the retired ones -/
  outermost : ∀ i, v.IsActive i → ¬w.IsRetired i →
    ((own.map Frame.parent).getLastD w.active).lane i = true

namespace Since

theorem refl (h : w.Separate) : Since w [] w where
  frames := rfl
  separate := h
  mono _ hi := hi
  retired _ hi := .inl hi
  active _ hi := hi
  parents _ hframe := absurd hframe List.not_mem_nil
  outermost _ hi _ := hi

theorem push (h : Since v own w) : Since v (⟨w.active, cond⟩ :: own) (w.push cond) where
  frames := congrArg _ h.frames
  separate := h.separate.push
  mono := h.mono
  retired := h.retired
  active i hi := h.active i (isActive_push.1 hi).1
  parents := List.forall_mem_cons.2 ⟨h.active, h.parents⟩
  outermost i hi hr := by
    rw [List.map_cons, List.getLastD_cons]
    exact h.outermost i hi hr

theorem flip (h : Since v (frame :: own) w) : Since v (frame :: own) w.flip where
  frames := frames_flip.trans h.frames
  separate := h.separate.flip
  mono i hi := isRetired_flip.2 (h.mono i hi)
  retired i hi := h.retired i (isRetired_flip.1 hi)
  active i hi := h.parents frame (.head _) i ((isActive_flip h.frames).1 hi).1
  parents := h.parents
  outermost i hi hr := h.outermost i hi fun hw => hr (isRetired_flip.2 hw)

theorem pop (h : Since v (frame :: own) w) : Since v own w.pop where
  frames := by rw [frames_pop, h.frames, List.cons_append, List.tail_cons]
  separate := h.separate.pop
  mono i hi := isRetired_pop.2 (h.mono i hi)
  retired i hi := h.retired i (isRetired_pop.1 hi)
  active i hi := h.parents frame (.head _) i ((isActive_pop h.frames).1 hi).1
  parents := (List.forall_mem_cons.1 h.parents).2
  outermost i hi hr := by
    have hw : ¬w.IsRetired i := fun hw => hr (isRetired_pop.2 hw)
    have hlane := h.outermost i hi hw
    cases own with
    -- the frame that is closed is the outermost one, and its parent had all lanes but the retired
    | nil => exact (isActive_pop h.frames).2 ⟨hlane, hw⟩
    | cons frame' own => exact hlane

theorem retire (h : Since v own w) : Since v own (w.retire cond) where
  frames := h.frames
  separate := h.separate.retire
  mono i hi := isRetired_retire.2 (.inl (h.mono i hi))
  retired i hi := by
    rcases isRetired_retire.1 hi with hi | ⟨hi, -⟩
    · exact h.retired i hi
    · exact .inr (h.active i hi)
  active i hi := h.active i (isActive_retire.1 hi).1
  parents := h.parents
  outermost i hi hr := by
    have hlane := h.outermost i hi fun hw => hr (isRetired_retire.2 (.inl hw))
    cases own with
    | nil =>
      refine isActive_retire.2 ⟨hlane, Bool.eq_false_iff.2 fun hc => ?_⟩
      exact hr (isRetired_retire.2 (.inr ⟨hlane, hc⟩))
    | cons frame' own => exact hlane

/-- Code that has closed all its conditionals may be part of other code. -/
theorem trans (h : Since u own v) (h' : Since v [] w) : Since u own w where
  frames := h'.frames.trans h.frames
  separate := h'.separate
  mono i hi := h'.mono i (h.mono i hi)
  retired i hi := by
    rcases h'.retired i hi with hi | hi
    · exact h.retired i hi
    · exact .inr (h.active i hi)
  active i hi := h.active i (h'.active i hi)
  parents := h.parents
  outermost i hi hr := by
    have hlane := h.outermost i hi fun hv => hr (h'.mono i hv)
    cases own with
    | nil => exact h'.outermost i hlane hr
    | cons frame own => exact hlane

/-- When all is closed, the active lanes are the old ones that are not retired. -/
theorem isActive_iff (h : Since v [] w) : w.IsActive i ↔ v.IsActive i ∧ ¬w.IsRetired i :=
  ⟨fun hi => ⟨h.active i hi, h.separate i hi⟩, fun ⟨hi, hr⟩ => h.outermost i hi hr⟩

/-! ## Through a conditional -/

/-- The second arm starts on the lanes that did not take the first one, whatever that retired. -/
theorem isActive_flip_push (hw : w.Separate) (h : Since (w.push cond) [] v) :
    v.flip.IsActive i ↔ w.IsActive i ∧ cond.lane i = false := by
  rw [isActive_flip h.frames]
  refine ⟨fun h => ⟨h.1, h.2.1⟩, fun ⟨hi, hc⟩ => ⟨hi, hc, fun hr => ?_⟩⟩
  -- retired before the first arm, or in it: the lane was not active then, and not in it
  rcases h.retired i hr with hr | hi'
  · exact hw i hi hr
  · exact Bool.false_ne_true (hc.symm.trans (isActive_push.1 hi').2)

/-- A conditional, closed after both arms. -/
theorem conditional (hw : w.Separate) (h₁ : Since (w.push cond) [] v) (h₂ : Since v.flip [] u) :
    Since w [] u.pop :=
  (((refl hw).push.trans h₁).flip.trans h₂).pop

/-- A lane that takes the first arm is after the conditional what it is after that arm. -/
theorem first_lanes (hw : w.Separate) (h₁ : Since (w.push cond) [] v) (h₂ : Since v.flip [] u)
    (hc : cond.lane i = true) : u.pop.IsActive i ↔ v.IsActive i := by
  have hretired : u.IsRetired i ↔ v.IsRetired i := by
    refine ⟨fun hr => ?_, fun hr => h₂.mono i (isRetired_flip.2 hr)⟩
    rcases h₂.retired i hr with hr | hi'
    · exact isRetired_flip.1 hr
    · exact absurd (((isActive_flip_push hw h₁).1 hi').2.symm.trans hc) Bool.false_ne_true
  rw [(conditional hw h₁ h₂).isActive_iff, isRetired_pop, hretired, h₁.isActive_iff, isActive_push,
    and_iff_left hc]

/-- A lane that takes the second arm is after the conditional what it is after that arm. -/
theorem second_lanes (hw : w.Separate) (h₁ : Since (w.push cond) [] v) (h₂ : Since v.flip [] u)
    (hi : w.IsActive i) (hc : cond.lane i = false) : u.pop.IsActive i ↔ u.IsActive i := by
  have hflip : v.flip.IsActive i := (isActive_flip_push hw h₁).2 ⟨hi, hc⟩
  rw [(conditional hw h₁ h₂).isActive_iff, isRetired_pop, h₂.isActive_iff, and_iff_right hi,
    and_iff_right hflip]

end Since

end WriteMask

/-! ## Code that closes what it opens -/

namespace Flow

open WriteMask

variable {f g : Flow B n σ} {cond : Mask B n} {code first second : Flow B n σ → Option (Flow B n σ)}

/-- Started with no retired lane active, the code has no conditional of its own open in the end. -/
def Restores (code : Flow B n σ → Option (Flow B n σ)) : Prop :=
  ∀ f g, f.mask.Separate → code f = some g → Since f.mask [] g.mask

theorem Restores.whenActive (h : Restores code) : Restores fun f => f.whenActive code := by
  intro f g hf hg
  rcases whenActive_eq_some hg with ⟨-, rfl⟩ | ⟨-, hg⟩
  · exact .refl hf
  · exact h f g hf hg

/-- Where the arms of a branch start and end. -/
theorem Restores.branch_eq_some (h₁ : Restores first) (h₂ : Restores second)
    (hf : f.mask.Separate) (hg : f.branch cond first second = some g) :
    ∃ f₁ f₂, (f.push cond).whenActive first = some f₁ ∧ f₁.flip.whenActive second = some f₂ ∧
      g = f₂.pop ∧ Since (f.mask.push cond) [] f₁.mask ∧ Since f₁.mask.flip [] f₂.mask := by
  obtain ⟨f₁, f₂, hf₁, hf₂, rfl⟩ := Flow.branch_eq_some.1 hg
  have hfirst : Since (f.mask.push cond) [] f₁.mask := h₁.whenActive _ _ hf.push hf₁
  have hsecond : Since f₁.flip.mask [] f₂.mask :=
    h₂.whenActive _ _ (mask_flip ▸ hfirst.separate.flip) hf₂
  exact ⟨f₁, f₂, hf₁, hf₂, rfl, hfirst, mask_flip ▸ hsecond⟩

theorem Restores.branch (h₁ : Restores first) (h₂ : Restores second) (hf : f.mask.Separate)
    (hg : f.branch cond first second = some g) : Since f.mask [] g.mask := by
  obtain ⟨f₁, f₂, -, -, rfl, hfirst, hsecond⟩ := h₁.branch_eq_some h₂ hf hg
  rw [mask_pop]
  exact .conditional hf hfirst hsecond

/-- A loop ends with the mask it found: its turns leave its own frame the innermost one, and what
that frame has kept is all there is to know. -/
theorem Restores.repeatWhile (h : Restores code) {cond : σ → Mask B n} {fuel : Nat}
    (hf : f.mask.Separate) (hg : f.repeatWhile fuel cond code = some g) : g.mask = f.mask := by
  obtain ⟨r, hr, rfl⟩ := repeatWhile_eq_some.1 hg
  -- the question before a turn takes lanes away, so the frames are all that the turns keep
  have hturn : ∀ f' g' : Flow B n σ, (f'.mask.Separate ∧ f'.mask.frames = f.mask.enterLoop.frames) →
      code (f'.restrict (cond f'.state)) = some g' →
      g'.mask.Separate ∧ g'.mask.frames = f.mask.enterLoop.frames := by
    rintro f' g' ⟨hsep, hframes⟩ hg'
    have hsince := h _ _ hsep.restrict hg'
    exact ⟨hsince.separate, hsince.frames.trans hframes⟩
  obtain ⟨last, ⟨-, hframes⟩, hlast, -⟩ := turns_induction _ hturn hr ⟨separate_enterLoop, rfl⟩
  rw [mask_pop]
  refine pop_reinstate hf ?_
  rw [hlast]
  exact hframes

end Flow

/-! ## Balanced code -/

namespace Code

open Wavefront.Flow WriteMask

variable {p q : Code B n σ} {d d' fuel : Nat} {f g : Flow B n σ} {v : WriteMask B n}
  {own : List (Frame B n)}

/-- The code keeps count of its own conditionals: from as many as it may assume to as many as it
promises. -/
def KeepsCount (fuel : Nat) (p : Code B n σ) : Prop :=
  ∀ d d' v own f g, p.depthAfter d = some d' → own.length = d → Since v own f.mask →
    p.run fuel f = some g → ∃ own', own'.length = d' ∧ Since v own' g.mask

/-- Balanced code counts from none to none. -/
theorem KeepsCount.restores (h : p.KeepsCount fuel) (hp : p.Balanced) : Restores (p.run fuel) := by
  intro f g hf hg
  obtain ⟨own, hown, hsince⟩ := h 0 0 f.mask [] f g hp rfl (.refl hf) hg
  rw [List.eq_nil_of_length_eq_zero hown] at hsince
  exact hsince

theorem keepsCount (p : Code B n σ) (fuel : Nat) : p.KeepsCount fuel := by
  induction p with
  | skip =>
    intro d d' v own f g hp hown h hg
    obtain rfl := Option.some.inj hp
    obtain rfl := Option.some.inj hg
    exact ⟨own, hown, h⟩
  | update change =>
    intro d d' v own f g hp hown h hg
    obtain rfl := Option.some.inj hp
    obtain rfl := Option.some.inj hg
    exact ⟨own, hown, h⟩
  | push cond =>
    intro d d' v own f g hp hown h hg
    obtain rfl := Option.some.inj hp
    obtain rfl := Option.some.inj hg
    exact ⟨⟨f.mask.active, cond f.mask f.state⟩ :: own, congrArg Nat.succ hown, h.push⟩
  | flip =>
    intro d d' v own f g hp hown h hg
    obtain ⟨rfl, e, rfl⟩ := depthAfter_flip hp
    obtain rfl := Option.some.inj hg
    obtain ⟨frame, own, rfl⟩ := List.exists_cons_of_length_eq_add_one hown
    exact ⟨frame :: own, hown, mask_flip ▸ h.flip⟩
  | pop =>
    intro d d' v own f g hp hown h hg
    obtain rfl := depthAfter_pop hp
    obtain rfl := Option.some.inj hg
    obtain ⟨frame, own, rfl⟩ := List.exists_cons_of_length_eq_add_one hown
    exact ⟨own, Nat.succ.inj hown, mask_pop ▸ h.pop⟩
  | retire cond =>
    intro d d' v own f g hp hown h hg
    obtain rfl := Option.some.inj hp
    obtain rfl := Option.some.inj hg
    exact ⟨own, hown, h.retire⟩
  | seq first second ih₁ ih₂ =>
    intro d d' v own f g hp hown h hg
    obtain ⟨e, hfirst, hsecond⟩ := depthAfter_seq hp
    obtain ⟨f₁, hf₁, hg⟩ := Option.bind_eq_some_iff.1 hg
    obtain ⟨own₁, hown₁, h₁⟩ := ih₁ d e v own f f₁ hfirst hown h hf₁
    exact ih₂ e d' v own₁ f₁ g hsecond hown₁ h₁ hg
  | branch cond first second ih₁ ih₂ =>
    intro d d' v own f g hp hown h hg
    obtain ⟨hfirst, hsecond, rfl⟩ := depthAfter_branch hp
    -- the arms start to count for themselves, and the branch as a whole is one balanced piece
    exact ⟨own, hown, h.trans ((ih₁.restores hfirst).branch (ih₂.restores hsecond) h.separate hg)⟩
  | loop cond body ih =>
    intro d d' v own f g hp hown h hg
    obtain ⟨hbody, rfl⟩ := depthAfter_loop hp
    exact ⟨own, hown, (ih.restores hbody).repeatWhile h.separate hg ▸ h⟩

theorem Balanced.restores (hp : p.Balanced) (fuel : Nat) : Restores (p.run fuel) :=
  (keepsCount p fuel).restores hp

/-- A branch runs its arms on the lanes that they are for, whatever the first arm retires, and ends
whenever both arms do: with the conditionals it found and the lanes it found, except those that its
arms retired outside of their own loops. A loop that ends leaves the mask as it was, for all
conditions it may be asked. -/
theorem branch_and_loop_restore {p q body : Code B n σ} (hp : p.Balanced) (hq : q.Balanced)
    (hbody : body.Balanced) {f : Flow B n σ} (hf : f.mask.Separate) (fuel : Nat) (cond : Mask B n)
    (again : σ → Mask B n) :
    (∀ i, (f.push cond).mask.IsActive i ↔ f.mask.IsActive i ∧ cond.lane i = true) ∧
    (∀ f₁, (f.push cond).whenActive (p.run fuel) = some f₁ →
      ∀ i, f₁.flip.mask.IsActive i ↔ f.mask.IsActive i ∧ cond.lane i = false) ∧
    (∀ g, f.branch cond (p.run fuel) (q.run fuel) = some g ↔
      ∃ f₁ f₂, (f.push cond).whenActive (p.run fuel) = some f₁ ∧
        f₁.flip.whenActive (q.run fuel) = some f₂ ∧ g = f₂.pop) ∧
    (∀ g, f.branch cond (p.run fuel) (q.run fuel) = some g →
      g.mask.frames = f.mask.frames ∧
      ∀ i, g.mask.IsActive i ↔ f.mask.IsActive i ∧
        ¬(Position.ofMask f.mask).RetiresOutside
          ((branch (fun _ _ => cond) p q).trace fuel f).motions i) ∧
    ∀ g, f.repeatWhile fuel again (body.run fuel) = some g → g.mask = f.mask := by
  have hp := hp.restores fuel
  have hq := hq.restores fuel
  refine ⟨fun i => isActive_push, fun f₁ hf₁ i => ?_, fun g => branch_eq_some, fun g hg => ?_,
    fun g hg => ?_⟩
  · have hsince : Since (f.mask.push cond) [] f₁.mask := hp.whenActive _ _ hf.push hf₁
    rw [mask_flip]
    exact hsince.isActive_flip_push hf
  · have hsince : Since f.mask [] g.mask := hp.branch hq hf hg
    refine ⟨hsince.frames, fun i => ?_⟩
    have hhome := Position.isRetired_home (s := .ofMask f.mask) (i := i)
      ((branch (fun _ _ => cond) p q).trace fuel f).motions
    rw [run_trace (p := branch (fun _ _ => cond) p q) hg] at hhome
    rw [hsince.isActive_iff]
    refine and_congr_right fun hi => not_congr (hhome.trans (or_iff_right (hf i hi)))
  · exact (hbody.restores fuel).repeatWhile hf hg

/-- Of two lanes, the first arm retires the first one, and only the second one is left after the
branch. The loop is left by both in its first turn, by one since its condition fails and by the
other since it is retired. -/
theorem branch_and_loop_restore_two_lanes :
    let first : Mask .scalar 2 := ⟨#v[true, false]⟩
    let f : Flow .scalar 2 Unit := ⟨.fresh, (), []⟩
    let leave : Code .scalar 2 Unit := retire fun _ _ => first
    leave.Balanced ∧ f.mask.Separate ∧
    (∃ g, f.branch first (leave.run 1) (leave.run 1) = some g ∧ g.mask.frames = [] ∧
      g.mask.active = ⟨#v[false, true]⟩ ∧
      (∃ f₁ f₂, (f.push first).whenActive (leave.run 1) = some f₁ ∧
        f₁.flip.whenActive (leave.run 1) = some f₂ ∧ g = f₂.pop) ∧
      ∀ i, g.mask.IsActive i ↔ f.mask.IsActive i ∧
        ¬(Position.ofMask f.mask).RetiresOutside
          ((branch (fun _ _ => first) leave leave).trace 1 f).motions i) ∧
    ∃ g, f.repeatWhile 1 (fun _ => first) (leave.run 1) = some g ∧ g.mask = f.mask := by
  intro first f leave
  have hleave : leave.Balanced := rfl
  have hf : f.mask.Separate := separate_fresh
  obtain ⟨-, -, harms, hbranch, hloop⟩ :=
    branch_and_loop_restore hleave hleave hleave hf 1 first fun _ => first
  have hg : f.branch first (leave.run 1) (leave.run 1) =
      some ⟨⟨⟨#v[false, true]⟩, ⟨#v[true, false]⟩, []⟩, (), []⟩ := by cbv
  have hg' : f.repeatWhile 1 (fun _ => first) (leave.run 1) =
      some ⟨.fresh, (), [.loopFinished 1]⟩ := by cbv
  obtain ⟨hframes, hlanes⟩ := hbranch _ hg
  exact ⟨hleave, hf, ⟨_, hg, hframes, rfl, (harms _).1 hg, hlanes⟩, _, hg', hloop _ hg'⟩

end Code

end Wavefront
