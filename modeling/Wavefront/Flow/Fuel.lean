import Wavefront.Flow

/-!
# Fuel of structured control flow

Fuel is consulted in one place, at the start of a turn that a loop still wants, and there too little
of it means no answer at all. So an answer, once there is one, is the answer for every larger
fuel, and code may be run with the largest fuel that any of its parts needs.

`Extends` says that one piece of code answers at least where another one does, and the same. The
statements are relative to it, because the parts of a program with more fuel extend those with less.
-/

namespace Wavefront.Flow

variable {B : Backend} {n : Nat} {σ : Type}

/-- The second code has every answer of the first. -/
def Extends (code code' : Flow B n σ → Option (Flow B n σ)) : Prop :=
  ∀ f g, code f = some g → code' f = some g

theorem Extends.refl (code : Flow B n σ → Option (Flow B n σ)) : Extends code code :=
  fun _ _ h => h

theorem Extends.whenActive {code code' : Flow B n σ → Option (Flow B n σ)}
    (h : Extends code code') :
    Extends (fun f => f.whenActive code) (fun f => f.whenActive code') := by
  intro f g hg
  simp only [Flow.whenActive] at hg ⊢
  split at hg
  case isTrue ha => rw [if_pos ha]; exact h f g hg
  case isFalse ha => rw [if_neg ha]; exact hg

/-- A branch has an answer where its arms have. -/
theorem Extends.branch {first first' second second' : Flow B n σ → Option (Flow B n σ)}
    (cond : Mask B n) (h₁ : Extends first first') (h₂ : Extends second second') :
    Extends (Flow.branch cond first second) (Flow.branch cond first' second') := by
  intro f g hg
  obtain ⟨f₁, hf₁, hg⟩ := Option.bind_eq_some_iff.1 hg
  obtain ⟨f₂, hf₂, hg⟩ := Option.bind_eq_some_iff.1 hg
  exact Option.bind_eq_some_iff.2 ⟨f₁, h₁.whenActive _ _ hf₁,
    Option.bind_eq_some_iff.2 ⟨f₂, h₂.whenActive _ _ hf₂, hg⟩⟩

/-- A turn that no lane wants is not taken, and needs no fuel. -/
theorem turns_of_inactive {cond : σ → Mask B n} {body : Flow B n σ → Option (Flow B n σ)}
    {f : Flow B n σ} (h : ¬(f.restrict (cond f.state)).mask.anyActive) (fuel taken : Nat) :
    turns cond body fuel taken f = some (f.restrict (cond f.state), taken) := by
  cases fuel <;> rw [turns, if_neg h]

/-- More fuel, and a body with more answers, keep the turns of a loop. -/
theorem turns_of_le {cond : σ → Mask B n} {body body' : Flow B n σ → Option (Flow B n σ)}
    (hbody : Extends body body') {fuel fuel' : Nat} (hle : fuel ≤ fuel') {taken : Nat}
    {f : Flow B n σ} {r : Flow B n σ × Nat} (h : turns cond body fuel taken f = some r) :
    turns cond body' fuel' taken f = some r := by
  induction fuel generalizing fuel' taken f with
  | zero =>
    rw [turns] at h
    split at h
    case isTrue => exact absurd h (by simp)
    case isFalse ha => rw [turns_of_inactive ha]; exact h
  | succ fuel ih =>
    obtain ⟨fuel', rfl⟩ : ∃ m, fuel' = m + 1 := ⟨fuel' - 1, by omega⟩
    rw [turns] at h ⊢
    split at h
    case isTrue ha =>
      obtain ⟨g, hg, h⟩ := Option.bind_eq_some_iff.1 h
      rw [if_pos ha]
      exact Option.bind_eq_some_iff.2 ⟨g, hbody _ _ hg, ih (by omega) h⟩
    case isFalse ha => rw [if_neg ha]; exact h

/-- More fuel, and a body with more answers, keep the answers of a loop. -/
theorem Extends.repeatWhile {body body' : Flow B n σ → Option (Flow B n σ)}
    (cond : σ → Mask B n) (hbody : Extends body body') {fuel fuel' : Nat} (hle : fuel ≤ fuel') :
    Extends (Flow.repeatWhile fuel cond body) (Flow.repeatWhile fuel' cond body') := by
  intro f g hg
  obtain ⟨r, hr, hg⟩ := Option.bind_eq_some_iff.1 hg
  exact Option.bind_eq_some_iff.2 ⟨r, turns_of_le hbody hle hr, hg⟩

end Wavefront.Flow
