import Wavefront.Proofs.LawfulLibrary

/-!
# Lanes that are alike

Two backends may answer different NaNs. Lanes are *alike* when they are the same, any NaN counting
as any other. The operations of a lane pass NaNs on, so they answer alike for operands that are
alike, and comparisons and conversions even answer the same. A lawful library does so too. Only the
pattern of a float, read as a word, tells one NaN from another.
-/

namespace Wavefront.Lane

/-- The same lane value, any NaN counting as any other. -/
def Alike : {k : Kind} → k.Lane → k.Lane → Prop
  | .number .float, x, y => x = y ∨ x.isNaN = true ∧ y.isNaN = true
  | .number (.integer _), x, y => x = y
  | .bool, x, y => x = y

namespace Alike

variable {k : Kind} {t : Number} {mode : Denormals} {B B' : Backend} {lib : MathLibrary}

@[refl] theorem refl (x : k.Lane) : Alike x x := by
  match k with
  | .number .float => exact .inl rfl
  | .number (.integer _) => rfl
  | .bool => rfl

theorem of_eq {x y : k.Lane} (h : x = y) : Alike x y := h ▸ refl x

/-- Only floats have NaNs. -/
theorem eq_of_ne_float (hk : k ≠ .float) {x y : k.Lane} (h : Alike x y) : x = y := by
  match k with
  | .number .float => exact absurd rfl hk
  | .number (.integer _) => exact h
  | .bool => exact h

/-- Without NaNs every function answers alike. -/
theorem congr_ne_float {l : Kind} (hk : k ≠ .float) (f : k.Lane → l.Lane) {x y : k.Lane}
    (h : Alike x y) : Alike (f x) (f y) := of_eq (congrArg f (h.eq_of_ne_float hk))

theorem congr₂_ne_float {l : Kind} (hk : k ≠ .float) (f : k.Lane → k.Lane → l.Lane)
    {x x' y y' : k.Lane} (hx : Alike x x') (hy : Alike y y') : Alike (f x y) (f x' y') :=
  of_eq (congrArg₂ f (hx.eq_of_ne_float hk) (hy.eq_of_ne_float hk))

/-! ## Functions that see one NaN only -/

/-- A function with one answer for NaN does not tell alike values apart. -/
theorem congr {α : Type} {f : Single → α} {c : α} (hf : ∀ x, x.isNaN = true → f x = c)
    {x y : Single} (h : Alike (k := .float) x y) : f x = f y := by
  rcases h with rfl | ⟨hx, hy⟩
  · rfl
  · rw [hf x hx, hf y hy]

/-- The same for two operands, where one NaN decides. -/
theorem congr₂ {α : Type} {f : Single → Single → α} {c : α}
    (hf : ∀ x y, x.isNaN = true ∨ y.isNaN = true → f x y = c) {x x' y y' : Single}
    (hx : Alike (k := .float) x x') (hy : Alike (k := .float) y y') : f x y = f x' y' := by
  rcases hx with rfl | ⟨hx, hx'⟩
  · exact hy.congr fun z hz => hf x z (.inr hz)
  · rw [hf x y (.inl hx), hf x' y' (.inl hx')]

/-- A function under which NaN stays NaN, or another one that follows it. -/
theorem map {f f' g : Single → Single} (hf : Follows f g) (hf' : Follows f' g)
    (hg : ∀ x, x.isNaN = true → (g x).isNaN = true) {x y : Single}
    (h : Alike (k := .float) x y) : Alike (k := .float) (f x) (f' y) := by
  rcases h with rfl | ⟨hx, hy⟩
  · cases hx : (g x).isNaN
    · exact .inl ((hf.eq hx).trans (hf'.eq hx).symm)
    · exact .inr ⟨hf.isNaN hx, hf'.isNaN hx⟩
  · exact .inr ⟨hf.isNaN (hg x hx), hf'.isNaN (hg y hy)⟩

/-- Two operands, where one NaN is enough for NaN. -/
theorem map₂ {f : Single → Single → Single}
    (hf : ∀ x y, x.isNaN = true ∨ y.isNaN = true → (f x y).isNaN = true) {x x' y y' : Single}
    (hx : Alike (k := .float) x x') (hy : Alike (k := .float) y y') :
    Alike (k := .float) (f x y) (f x' y') := by
  rcases hx with rfl | ⟨hx, hx'⟩
  · rcases hy with rfl | ⟨hy, hy'⟩
    · exact .inl rfl
    · exact .inr ⟨hf x y (.inr hy), hf x y' (.inr hy')⟩
  · exact .inr ⟨hf x y (.inl hx), hf x' y' (.inl hx')⟩

/-! ## Comparisons -/

theorem eq {x x' y y' : k.Lane} (hx : Alike x x') (hy : Alike y y') :
    Lane.eq mode x y = Lane.eq mode x' y' := by
  match k with
  | .number .float => exact congr₂ Single.eq_of_isNaN hx hy
  | .number (.integer _) => cases hx; cases hy; rfl
  | .bool => cases hx; cases hy; rfl

theorem lt {x x' y y' : (Kind.number t).Lane} (hx : Alike x x') (hy : Alike y y') :
    Lane.lt mode x y = Lane.lt mode x' y' := by
  match t with
  | .float => exact congr₂ Single.lt_of_isNaN hx hy
  | .integer _ => cases hx; cases hy; rfl

theorem le {x x' y y' : (Kind.number t).Lane} (hx : Alike x x') (hy : Alike y y') :
    Lane.le mode x y = Lane.le mode x' y' := by
  match t with
  | .float => exact congr₂ Single.le_of_isNaN hx hy
  | .integer _ => cases hx; cases hy; rfl

/-! ## Arithmetic -/

theorem select {x x' y y' : k.Lane} {c c' : Bool} (hc : c = c') (hx : Alike x x')
    (hy : Alike y y') : Alike (if c then x else y) (if c' then x' else y') := by
  subst hc
  split
  · exact hx
  · exact hy

theorem min {x x' y y' : (Kind.number t).Lane} (hx : Alike x x') (hy : Alike y y') :
    Alike (Lane.min x y) (Lane.min x' y') := select (hx.lt hy) hx hy

theorem max {x x' y y' : (Kind.number t).Lane} (hx : Alike x x') (hy : Alike y y') :
    Alike (Lane.max x y) (Lane.max x' y') := select (hy.lt hx) hx hy

theorem add {x x' y y' : (Kind.number t).Lane} (hx : Alike x x') (hy : Alike y y') :
    Alike (Lane.add mode x y) (Lane.add mode x' y') := by
  match t with
  | .float => exact map₂ Single.isNaN_add hx hy
  | .integer _ => cases hx; cases hy; rfl

theorem sub {x x' y y' : (Kind.number t).Lane} (hx : Alike x x') (hy : Alike y y') :
    Alike (Lane.sub mode x y) (Lane.sub mode x' y') := by
  match t with
  | .float => exact map₂ Single.isNaN_sub hx hy
  | .integer _ => cases hx; cases hy; rfl

theorem mul {x x' y y' : (Kind.number t).Lane} (hx : Alike x x') (hy : Alike y y') :
    Alike (Lane.mul mode x y) (Lane.mul mode x' y') := by
  match t with
  | .float => exact map₂ Single.isNaN_mul hx hy
  | .integer _ => cases hx; cases hy; rfl

theorem div {x x' y y' : Single} (hx : Alike (k := .float) x x') (hy : Alike (k := .float) y y') :
    Alike (k := .float) (Single.div mode x y) (Single.div mode x' y') :=
  map₂ Single.isNaN_div hx hy

/-! ## Floats -/

theorem neg {x y : Single} (h : Alike (k := .float) x y) : Alike (k := .float) x.neg y.neg :=
  h.map (.refl _) (.refl _) fun x => (Single.isNaN_neg x).trans

section Library

variable {x x' y y' : Single} (hx : Alike (k := .float) x x') (hy : Alike (k := .float) y y')

section Exact

variable (hlib : lib.Exact)
include hx hlib

theorem absLane : Alike (k := .float) (Lane.absLane lib B x) (Lane.absLane lib B' x') := by
  rw [hlib.absLane, hlib.absLane]
  exact hx.map (.refl _) (.refl _) fun x => (Single.isNaN_abs x).trans

theorem truncLane : Alike (k := .float) (Lane.truncLane lib B x) (Lane.truncLane lib B' x') :=
  hx.map (hlib.truncLane B) (hlib.truncLane B') fun x => (Single.isNaN_trunc x).trans

theorem roundLane : Alike (k := .float) (Lane.roundLane lib B x) (Lane.roundLane lib B' x') :=
  hx.map (hlib.roundLane B) (hlib.roundLane B') fun x => (Single.isNaN_round x).trans

theorem floorLane : Alike (k := .float) (Lane.floorLane lib B x) (Lane.floorLane lib B' x') :=
  hx.map (hlib.floorLane B) (hlib.floorLane B') fun x => (Single.isNaN_floor x).trans

theorem ceilLane : Alike (k := .float) (Lane.ceilLane lib B x) (Lane.ceilLane lib B' x') :=
  hx.map (hlib.ceilLane B) (hlib.ceilLane B') fun x => (Single.isNaN_ceil x).trans

end Exact

variable (hlib : lib.Lawful)
include hx hlib

theorem sqrtLane : Alike (k := .float) (Lane.sqrtLane lib B x) (Lane.sqrtLane lib B' x') :=
  hx.map (hlib.sqrtLane B) (hlib.sqrtLane B') fun _ => Single.isNaN_sqrt

theorem elementary (f : Elementary) :
    Alike (k := .float) (lib.elementary f x) (lib.elementary f x') :=
  hx.map (.refl _) (.refl _) (hlib.elementary f)

include hy

theorem atan2 : Alike (k := .float) (lib.atan2 x y) (lib.atan2 x' y') := hx.map₂ hlib.atan2 hy

/-- The two powers that are one for NaN are so for every NaN. -/
theorem pow : Alike (k := .float) (lib.pow x y) (lib.pow x' y') := by
  have hnumber {z : Single} (hz : z.isNaN = true) : z ≠ Single.one ∧ z.magnitude ≠ 0 := by
    constructor <;> rintro h
    · rw [h] at hz
      exact absurd hz (by decide)
    · rw [Single.isNaN_iff, h] at hz
      exact absurd hz (by decide)
  rcases hy with rfl | ⟨hy, hy'⟩
  · rcases hx with rfl | ⟨hx, hx'⟩
    · exact .inl rfl
    by_cases h0 : y.magnitude = 0
    · exact .inl ((hlib.pow_zero x y h0).trans (hlib.pow_zero x' y h0).symm)
    · exact .inr ⟨hlib.pow x y (.inl hx) (hnumber hx).1 h0,
        hlib.pow x' y (.inl hx') (hnumber hx').1 h0⟩
  · have hone : x = Single.one ↔ x' = Single.one := by
      rcases hx with rfl | ⟨hx, hx'⟩
      · rfl
      · exact iff_of_false (hnumber hx).1 (hnumber hx').1
    by_cases h1 : x = Single.one
    · rw [h1, hone.1 h1, hlib.one_pow, hlib.one_pow]
    · exact .inr ⟨hlib.pow x y (.inr hy) h1 (hnumber hy).2,
        hlib.pow x' y' (.inr hy') (mt hone.2 h1) (hnumber hy').2⟩

end Library

/-! ## Conversions -/

theorem cast (target : Kind) {x y : k.Lane} (h : Alike x y) :
    Alike (Lane.cast k target x) (Lane.cast k target y) := by
  match k, target with
  | .number (.integer _), _ => cases h; rfl
  | .bool, _ => cases h; rfl
  | .number .float, .number .float => exact h
  | .number .float, .int =>
    exact h.congr fun x hx => congrArg (BitVec.ofInt 32) (Single.clampedWhole_of_isNaN _ _ hx)
  | .number .float, .uint =>
    exact h.congr fun x hx => congrArg (BitVec.ofInt 32) (Single.clampedWhole_of_isNaN _ _ hx)
  | .number .float, .bool =>
    exact h.congr fun x hx => by rw [Lane.cast, Single.eq_of_isNaN x _ (.inl hx)]

end Alike

end Wavefront.Lane
