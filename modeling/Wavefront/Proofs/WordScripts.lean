import Wavefront.Proofs.Backends
import Wavefront.Proofs.LinkedScript

/-!
# The two backends agree on scripts without floats

A script on words and truth values does the same on the four-lane unit with `n` registers as on the
scalar backend with `4 * n`, step by step: after each step the variables have the same lanes, the
same lanes are active and the same conditionals are open; the same arms are skipped, loops take the
same number of turns, reductions find the same, and a step that fails does so on both backends for
the same reason. All of this is in the flow and in the answers. Main statement:
`Step.runAll_agree`.

The statement is in terms of lists of lanes; `Batch.toList_eq_iff` and what follows it lead to links
and back.
-/

namespace Wavefront

variable {B B' : Backend} {n n' : Nat} {k : Kind}

/-- Words and truth values only, and nothing that looks beyond lanes. -/
def Dialect.words : Dialect :=
  ⟨fun k => decide (k ≠ .float), false, false, false, true⟩

/-- The same lanes active, retired and in every open conditional. -/
structure WriteMask.SameLanes (w : WriteMask B n) (w' : WriteMask B' n') : Prop where
  active : w.active.toList = w'.active.toList
  retired : w.retired.toList = w'.retired.toList
  frames : List.Forall₂ (fun f f' => f.parent.toList = f'.parent.toList ∧
    f.cond.toList = f'.cond.toList) w.frames w'.frames

namespace Script

/-- Words or truth values of one kind in the same lanes. -/
def Value.SameWords (v : Value B n) (v' : Value B' n') : Prop :=
  v.kind ≠ .float ∧ v.lanes = v'.lanes

/-- Variables of the same names with the same words, the same saved masks and the same guards. -/
structure Store.SameWords (s : Store B n) (s' : Store B' n') : Prop where
  vars : ∀ name, Option.Rel Value.SameWords (s.vars.lookup name) (s'.vars.lookup name)
  saved : List.Forall₂ WriteMask.SameLanes s.saved s'.saved
  control : s.control = s'.control

end Script

open Script

/-- The same write mask, the same variables and the same log. -/
structure Flow.SameWords (f : Flow B n (Store B n)) (f' : Flow B' n' (Store B' n')) : Prop where
  mask : f.mask.SameLanes f'.mask
  state : f.state.SameWords f'.state
  log : f.log = f'.log

/-! ## Lists of lanes and links -/

namespace Link

variable {L : Link B n B' n'}

theorem toList_eq_iff (hL : L.Total) (hk : k ≠ .float) {b : Batch B k n} {b' : Batch B' k n'} :
    b.toList = b'.toList ↔ L.Batches b b' := by
  refine ⟨fun h i i' hi => same_of_eq ?_, hL.toList_eq hk⟩
  rw [Batch.toList_eq_ofFn, Batch.toList_eq_ofFn] at h
  have hget := congrArg (fun lanes => lanes[i.val]?) h
  have hi' : i.val < Batch.width B' n' := L.aligned hi ▸ i'.isLt
  simp only [List.getElem?_ofFn, dif_pos i.isLt, dif_pos hi'] at hget
  rw [Option.some.inj hget]
  exact congrArg b'.lane (Fin.ext (L.aligned hi))

theorem sameLanes_iff (hL : L.Total) {w : WriteMask B n} {w' : WriteMask B' n'} :
    w.SameLanes w' ↔ L.WriteMasks w w' := by
  have hmask : ∀ {m : Mask B n} {m' : Mask B' n'}, m.toList = m'.toList ↔ L.Batches m m' :=
    toList_eq_iff hL (by decide)
  constructor
  · rintro ⟨hactive, hretired, hframes⟩
    exact ⟨hmask.1 hactive, hmask.1 hretired,
      hframes.imp fun _ _ h => ⟨hmask.1 h.1, hmask.1 h.2⟩⟩
  · rintro ⟨hactive, hretired, hframes⟩
    exact ⟨hmask.2 hactive, hmask.2 hretired,
      hframes.imp fun _ _ h => ⟨hmask.2 h.1, hmask.2 h.2⟩⟩

variable (hL : L.Total) (hkinds : ∀ k, L.dialect.kinds k = true ↔ k ≠ .float)
include hL hkinds

theorem sameWords_iff {v : Value B n} {v' : Value B' n'} : v.SameWords v' ↔ L.Values v v' := by
  constructor
  · obtain ⟨k, b⟩ := v
    obtain ⟨k', b'⟩ := v'
    rintro ⟨hk, hlanes⟩
    obtain ⟨rfl, hlanes⟩ := Lanes.mk.inj hlanes
    exact .mk ((hkinds k).2 hk) ((toList_eq_iff hL hk).1 (eq_of_heq hlanes))
  · rintro ⟨hk, h⟩
    rename_i k b b'
    have hk := (hkinds k).1 hk
    exact ⟨hk, congrArg (Lanes.mk k) ((toList_eq_iff hL hk).2 h)⟩

theorem store_sameWords_iff {s : Store B n} {s' : Store B' n'} :
    s.SameWords s' ↔ L.Stores s s' := by
  constructor
  · rintro ⟨hvars, hsaved, hcontrol⟩
    exact ⟨fun name => rel_imp (hvars name) fun _ _ => (sameWords_iff hL hkinds).1,
      hsaved.imp fun _ _ => (sameLanes_iff hL).1, hcontrol,
      fun hfloat => absurd rfl ((hkinds .float).1 hfloat)⟩
  · rintro ⟨hvars, hsaved, hcontrol, -⟩
    exact ⟨fun name => rel_imp (hvars name) fun _ _ => (sameWords_iff hL hkinds).2,
      hsaved.imp fun _ _ => (sameLanes_iff hL).2, hcontrol⟩

theorem flow_sameWords_iff {f : Flow B n (Store B n)} {f' : Flow B' n' (Store B' n')} :
    f.SameWords f' ↔ L.Flows L.Stores f f' := by
  constructor
  · rintro ⟨hmask, hstate, hlog⟩
    exact ⟨(sameLanes_iff hL).1 hmask, (store_sameWords_iff hL hkinds).1 hstate, hlog⟩
  · rintro ⟨hmask, hstate, hlog⟩
    exact ⟨(sameLanes_iff hL).2 hmask, (store_sameWords_iff hL hkinds).2 hstate, hlog⟩

end Link

namespace Script

/-- Words on the unit and on the scalar backend with as many lanes. -/
def wordLink (n : Nat) : Link .quad n .scalar (4 * n) :=
  .backends n .words rfl rfl rfl rfl

theorem wordLink_total (n : Nat) : (wordLink n).Total := (wordLink n).probes rfl

theorem wordLink_kinds (n : Nat) (k : Kind) :
    (wordLink n).dialect.kinds k = true ↔ k ≠ .float := decide_eq_true_iff

/-- **The backends agree on scripts without floats.** From flows with the same words, the steps of a
script lead to flows with the same words and to the same answers, failures included, or run out of
fuel on both backends. Taken for the first steps of a script, this is the state after each step;
what happens inside branches and loops, arm by arm and turn by turn, is in the answers. -/
theorem Step.runAll_agree {n : Nat} (fuel : Nat) (steps : List Step)
    (hsteps : Step.areIn .words steps = true) {f : Flow .quad n (Store .quad n)}
    {f' : Flow .scalar (4 * n) (Store .scalar (4 * n))} (h : f.SameWords f') :
    Option.Rel (fun r r' => r.1.SameWords r'.1 ∧ r.2 = r'.2) (Step.runAll fuel steps f)
      (Step.runAll fuel steps f') := by
  have hiff := @Link.flow_sameWords_iff _ _ _ _ _ (wordLink_total n) (wordLink_kinds n)
  have hrun := Link.Flows.runAll (wordLink_total n) rfl fuel steps hsteps f f' (hiff.1 h)
  exact Link.rel_imp hrun fun _ _ hr => ⟨hiff.2 hr.1, hr.2⟩

theorem start_sameWords (lib lib' : MathLibrary) (n : Nat) :
    (start lib : Flow .quad n _).SameWords (start lib' : Flow .scalar (4 * n) _) :=
  (Link.flow_sameWords_iff (wordLink_total n) (wordLink_kinds n)).2
    ⟨Link.writeMasks_fresh, ⟨fun _ => .none, .nil, rfl, nofun⟩, rfl⟩

/-- Lanes that count down and leave the loop at two or at zero; then a division by zero in some of
them. -/
def countdown : List Step :=
  [.action (.query (some "x") (.batch (.lanes .int [3, 1, 2, 0]))),
   .loop (.binary (.compare .gt) (.var "x") (.zeros .int))
    [.branch (.binary (.compare .eq) (.var "x") (.literal (.int 2)))
      [.action (.mask (.retire (.literal (.bool true))))]
      [.action (.update "x" (.assignActive (.binary .sub (.var "x") (.literal (.int 1)))))]],
   .action (.query none (.probe (.count (.binary (.compare .eq) (.var "x") (.zeros .int))))),
   .action (.update "x" (.combine .div (.var "x")))]

/-- The reply to an action. -/
def Answer.reply : Answer → Option Reply
  | action reply _ => some reply
  | _ => none

/-- How many turns a loop took. -/
def Answer.turns : Answer → Option Nat
  | loop _ turns _ => some turns.length
  | _ => none

/-- On both backends the loop takes two turns and leaves `[2, 0, 2, 0]`, in which two lanes are
zero, so the division fails. -/
theorem runAll_agree_countdown :
    let f : Flow .quad 1 (Store .quad 1) := start .double
    let f' : Flow .scalar (4 * 1) (Store .scalar (4 * 1)) := start .double
    let replies := [some (.observed (.lanes ⟨.int, ([3, 1, 2, 0] : List Word)⟩)), none,
      some (.observed (.lane ⟨.uint, (2 : Word)⟩)),
      some (.failed (.fault .divisionByZero) (some ⟨.int, ([2, 0, 2, 0] : List Word)⟩))]
    Step.areIn .words countdown = true ∧ f.SameWords f' ∧
      Option.Rel (fun r r' => r.1.SameWords r'.1 ∧ r.2 = r'.2)
        (Step.runAll 2 countdown f) (Step.runAll 2 countdown f') ∧
      (Step.runAll 2 countdown f).map (fun r => r.2.map Answer.turns)
        = some [none, some 2, none, none] ∧
      (Step.runAll 2 countdown f).map (fun r => r.2.map Answer.reply) = some replies ∧
      (Step.runAll 2 countdown f').map (fun r => r.2.map Answer.turns)
        = some [none, some 2, none, none] ∧
      (Step.runAll 2 countdown f').map (fun r => r.2.map Answer.reply) = some replies ∧
      Fault.divisionByZero.message = "attempt to divide by zero" := by
  intro f f' replies
  have hstart : f.SameWords f' := start_sameWords .double .double 1
  exact ⟨rfl, hstart, Step.runAll_agree 2 countdown rfl hstart, by decide +kernel,
    by decide +kernel, by decide +kernel, by decide +kernel, rfl⟩

end Script

end Wavefront
