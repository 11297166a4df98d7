import Wavefront.Proofs.BatchOps
import Wavefront.Proofs.RoundingDirections

/-!
# Halves to even

Rounding halves to even is put together from other roundings: what is above the floor of a value is
compared with one half, a tie is settled by the parity of the truncation, and everything else is
rounded with halves away from zero.

The difference from the floor is itself rounded, and between minus one half and zero it can come out
as one half for a value that is no tie. There both ways give the same negative zero
(`roundEven_of_small`). Everywhere else the difference is exact (`exists_aboveFloor`), so a tie is
seen exactly where there is one (`eq_half_iff`); and so is the arithmetic on its integer part
(`halved_eq_iff`).

* `follows_roundEvenLane`: with an exact library a lane is `Single.roundEven` on both backends.
* `roundEven_halves_to_even`: what that is, by exact values.
-/

namespace Wavefront

namespace Single

variable {x : Single} {m : Nat}

/-! ## What is asked for -/

/-- To the nearest integer, halves to the even one. -/
def roundEven : Single → Single :=
  toIntegral fun whole rest =>
    if 2 * rest < unitsPerOne then whole
    else if unitsPerOne < 2 * rest then whole + 1
    else whole + whole % 2

theorem rounded_roundEven (x : Single) : Rounded IsNearestEven x x.roundEven := by
  refine rounded_of_nearest (fun k j h => h.neg) (fun whole rest => ?_)
    (nearestEven_isNearest unitsPerOne_pos)
  have hpos := unitsPerOne_pos
  split
  case isTrue => exact .inl rfl
  case isFalse h =>
    have hrest : rest ≠ 0 := by omega
    split
    case isTrue => exact .inr ⟨hrest, rfl⟩
    case isFalse =>
      rcases Nat.mod_two_eq_zero_or_one whole with h | h
      · exact .inl (by rw [h, Nat.add_zero])
      · exact .inr ⟨hrest, by rw [h]⟩

/-- Rounding to the nearest does not look at the sign. -/
theorem roundEven_neg (x : Single) : x.neg.roundEven = x.roundEven.neg := by
  rw [roundEven, toIntegral, toIntegral, isFinite_neg, negative_neg, units, magnitude_neg, ← units]
  split
  · rw [neg_eq, negative_ofRatio, magnitude_ofRatio, ofRatio_keep]
  · rfl

/-- Without a tie both ways to the nearest integer are the same. -/
theorem round_of_ne (h : 2 * (x.units % unitsPerOne) ≠ unitsPerOne) : x.round = x.roundEven := by
  rw [round, roundEven, toIntegral, toIntegral]
  rcases Nat.lt_or_gt_of_ne h with hlt | hgt
  · rw [if_neg (Nat.not_le.2 hlt), if_pos hlt]
  · rw [if_pos (Nat.le_of_lt hgt), if_neg (Nat.not_lt_of_gt hgt), if_pos hgt]

/-! ## Above the floor -/

/-- What is missing to the next integer has a magnitude, except for values below one half. -/
theorem exists_gap (h : unitsPerOne ≤ 2 * unitsOf m) (hrest : unitsOf m % unitsPerOne ≠ 0) :
    ∃ r, unitsOf r = unitsPerOne - unitsOf m % unitsPerOne := by
  rcases Nat.lt_or_ge m normalMagnitude with hm | hm
  · rw [unitsOf_of_lt hm] at h
    exact absurd h (Nat.not_le.2 (Nat.lt_of_lt_of_le (Nat.mul_lt_mul_of_pos_left hm (by decide))
      (by decide)))
  · obtain ⟨e, f, hf, rfl⟩ := exists_normal hm
    rw [unitsOf_normal hf] at h hrest ⊢
    have he : e ≤ 149 := Nat.le_of_not_le fun he => hrest (shiftLeft_mod_point he _)
    -- both are multiples of the last place, and the gap is not longer than the significand
    have hone : unitsPerOne = 2 ^ (149 - e) * 2 ^ e := by
      rw [← Nat.pow_add, Nat.sub_add_cancel he, unitsPerOne, Nat.one_shiftLeft]
    rw [Nat.shiftLeft_eq, hone] at h ⊢
    rw [Nat.mul_mod_mul_right, ← Nat.sub_mul, ← Nat.shiftLeft_eq]
    have hle : 2 ^ (149 - e) ≤ 2 * (normalMagnitude + f) :=
      Nat.le_of_mul_le_mul_right (by rwa [← Nat.mul_assoc] at h) (Nat.two_pow_pos e)
    refine exists_unitsOf (Nat.lt_of_le_of_lt ?_ (show normalMagnitude + f < _ by omega)) e
    rcases Nat.lt_or_ge (normalMagnitude + f) (2 ^ (149 - e)) with hlt | hge
    · rw [Nat.mod_eq_of_lt hlt]
      omega
    · exact (Nat.sub_le _ _).trans hge

theorem lt_infinite_of_le_one (h : unitsOf m ≤ unitsPerOne) : m < infiniteMagnitude :=
  unitsOf_strictMono.lt_iff_lt.1 (Nat.lt_of_le_of_lt h (by decide))

/-- How far a value is above its floor, in units. -/
def aboveFloor (x : Single) : Nat :=
  if x.negative && x.units % unitsPerOne != 0 then unitsPerOne - x.units % unitsPerOne
  else x.units % unitsPerOne

theorem exists_aboveFloor (hlarge : unitsPerOne ≤ 2 * x.units) :
    ∃ m, m < infiniteMagnitude ∧ unitsOf m = x.aboveFloor := by
  have hlt := Nat.mod_lt x.units unitsPerOne_pos
  have hm : ∃ m, unitsOf m = x.aboveFloor := by
    rw [aboveFloor]
    split
    case isTrue h => exact exists_gap hlarge (bne_iff_ne.1 (Bool.and_eq_true_iff.1 h).2)
    case isFalse => exact exists_rest x.magnitude
  obtain ⟨m, hm⟩ := hm
  refine ⟨m, lt_infinite_of_le_one ?_, hm⟩
  rw [hm, aboveFloor]
  split
  · exact Nat.sub_le _ _
  · exact Nat.le_of_lt hlt

/-- The floor and what is above it make up the value. -/
theorem scaled_sub_floor (hx : x.isFinite = true) :
    x.floor.isFinite = true ∧ x.scaled - x.floor.scaled = x.aboveFloor := by
  obtain ⟨hfinite, hsign, hunits⟩ := toIntegral_exact (fun whole rest =>
    if x.negative && rest != 0 then whole + 1 else whole) hx
    (by cases x.negative <;> simp [Decidable.em])
  refine ⟨hfinite, ?_⟩
  have hlt := Nat.mod_lt x.units unitsPerOne_pos
  have hdiv := Nat.div_add_mod' x.units unitsPerOne
  rw [scaled, scaled, floor, hsign, hunits, aboveFloor]
  cases x.negative
  · simp only [Bool.false_and, Bool.false_eq_true, if_false]
    omega
  · by_cases hrest : x.units % unitsPerOne = 0
    · simp only [hrest, bne_self_eq_false, Bool.and_false, Bool.false_eq_true, if_false, if_true]
      omega
    · simp only [bne_iff_ne.2 hrest, Bool.and_true, if_true, Nat.succ_mul]
      omega

/-- From one half on a tie is seen exactly where there is one. -/
theorem eq_half_iff (hx : x.isFinite = true) (hlarge : unitsPerOne ≤ 2 * x.units) :
    eq .keep (sub .keep x x.floor) half = true ↔ 2 * (x.units % unitsPerOne) = unitsPerOne := by
  obtain ⟨hfloor, hrest⟩ := scaled_sub_floor hx
  obtain ⟨m, hmInf, hm⟩ := exists_aboveFloor hlarge
  obtain ⟨hfinite, hsub⟩ := sub_exact hx hfloor hmInf (by rw [hrest, hm, Int.natAbs_natCast])
  have hhalf : 2 * half.scaled = unitsPerOne := by decide
  have hlt := Nat.mod_lt x.units unitsPerOne_pos
  rw [eq_iff_scaled (isNaN_of_isFinite hfinite) (by decide), hsub, hrest, aboveFloor]
  split
  · omega
  · omega

/-! ## Parity -/

theorem eq_iff_units {y : Single} (hx : x.isFinite = true) (hy : y.isFinite = true)
    (hs : x.negative = y.negative) : eq .keep x y = true ↔ x.units = y.units := by
  rw [eq_iff_scaled (isNaN_of_isFinite hx) (isNaN_of_isFinite hy), scaled, scaled, hs]
  cases y.negative <;> simp

/-- A tie rounded by the parity of its integer part, with some way to cut at the point. -/
def tieToEven (cut : Single → Single) (x : Single) : Single :=
  if eq .keep (mul .keep (cut (mul .keep (cut x) half)) two) (cut x) then cut x
  else add .keep (cut x) (if le .keep x (zero false) then one.neg else one)

/-- Half the integer part, cut, is exact. -/
theorem halved_exact (hx : x.isFinite = true) (hwhole : x.units / unitsPerOne < normalMagnitude) :
    (mul .keep x.trunc half).trunc.isFinite = true ∧
      (mul .keep x.trunc half).trunc.negative = x.negative ∧
      (mul .keep x.trunc half).trunc.units = x.units / unitsPerOne / 2 * unitsPerOne := by
  obtain ⟨hfinite, hsign, hunits⟩ := trunc_exact hx
  generalize x.units / unitsPerOne = whole at hwhole hunits ⊢
  have hone : unitsPerOne = 2 * 2 ^ 148 := by decide
  obtain ⟨hhalfFinite, hhalfSign, hhalf⟩ := mul_significand (s := whole) (k := 148) (y := half)
    hfinite (by decide) (by omega) (by decide) (by
      rw [hunits, show units half = 2 ^ 148 by decide, Nat.shiftLeft_eq, Nat.mul_right_comm])
  obtain ⟨hcutFinite, hcutSign, hcut⟩ := trunc_exact hhalfFinite
  refine ⟨hcutFinite, ?_, ?_⟩
  · rw [hcutSign, hhalfSign, hsign, show half.negative = false by decide, Bool.bne_false]
  · rw [hcut, hhalf, Nat.shiftLeft_eq, hone, Nat.mul_div_mul_right _ _ (by decide)]

/-- Halving, cutting and doubling gives back the even integer parts. -/
theorem halved_eq_iff (hx : x.isFinite = true) (hwhole : x.units / unitsPerOne < normalMagnitude) :
    eq .keep (mul .keep (mul .keep x.trunc half).trunc two) x.trunc = true ↔
      x.units / unitsPerOne % 2 = 0 := by
  obtain ⟨hfinite, hsign, hunits⟩ := trunc_exact hx
  obtain ⟨hcutFinite, hcutSign, hcut⟩ := halved_exact hx hwhole
  generalize x.units / unitsPerOne = whole at hwhole hunits hcut ⊢
  obtain ⟨hevenFinite, hevenSign, heven⟩ := mul_significand (s := whole / 2 * 2) (k := 149)
    (y := two) hcutFinite (by decide) (by omega) (by decide) (by
      rw [hcut, show units two = 2 * unitsPerOne by decide, shiftLeft_point, Nat.mul_mul_mul_comm,
        Nat.mul_assoc])
  have hnegative : (mul .keep (mul .keep x.trunc half).trunc two).negative = x.trunc.negative := by
    rw [hevenSign, hcutSign, hsign, show two.negative = false by decide, Bool.bne_false]
  rw [eq_iff_units hevenFinite hfinite hnegative, heven, hunits, shiftLeft_point,
    Nat.mul_left_inj (Nat.ne_of_gt unitsPerOne_pos)]
  omega

/-- An even integer part is the answer. -/
theorem tieToEven_of_even (hx : x.isFinite = true)
    (hwhole : x.units / unitsPerOne < normalMagnitude) (heven : x.units / unitsPerOne % 2 = 0) :
    tieToEven trunc x = x.trunc :=
  if_pos ((halved_eq_iff hx hwhole).2 heven)

/-- The step from an odd integer part leads away from zero. -/
theorem le_zero_eq_negative (hx : x.isNaN = false) (hpos : 0 < x.magnitude) :
    le .keep x (zero false) = x.negative := by
  refine Bool.eq_iff_iff.2 ((le_keep_iff hx (by decide)).trans ?_)
  rw [position, show (zero false).position = 0 by decide]
  cases x.negative
  · simp only [Bool.false_eq_true, if_false, iff_false]
    omega
  · simp only [if_true, iff_true]
    omega

/-- Ties are settled right. -/
theorem tieToEven_of_tie (hx : x.isFinite = true)
    (htie : 2 * (x.units % unitsPerOne) = unitsPerOne) : tieToEven trunc x = x.roundEven := by
  have hpos := unitsPerOne_pos
  have hrest : x.units % unitsPerOne ≠ 0 := by omega
  have hwhole : x.units / unitsPerOne < normalMagnitude :=
    whole_of_not_integral (Nat.lt_of_not_le (mt rest_of_integral hrest))
  have hround : x.roundEven = ofRatio .keep x.negative
      ((x.units / unitsPerOne + x.units / unitsPerOne % 2) * unitsPerOne) 1 := by
    rw [roundEven, toIntegral, if_pos hx, if_neg (by omega), if_neg (by omega)]
  rw [hround]
  rcases Nat.mod_two_eq_zero_or_one (x.units / unitsPerOne) with heven | hodd
  · rw [tieToEven_of_even hx hwhole heven, heven, Nat.add_zero]
    exact trunc_of_whole hx
  · have hmagnitude : 0 < x.magnitude := by
      refine Nat.pos_of_ne_zero fun hm => hrest ?_
      rw [units, hm]
      decide
    have hne : ¬x.units / unitsPerOne % 2 = 0 := by omega
    rw [tieToEven, if_neg (mt (halved_eq_iff hx hwhole).1 hne), hodd,
      le_zero_eq_negative (isNaN_of_isFinite hx) hmagnitude]
    exact add_trunc_one hx (by cases x.negative <;> decide) (by cases x.negative <;> decide)

/-- Below one half it does not matter whether a tie is seen: there is nothing before the point, and
both ways give the zero of the sign. -/
theorem roundEven_of_small (hx : x.isFinite = true) (hsmall : 2 * x.units < unitsPerOne) :
    tieToEven trunc x = x.roundEven ∧ x.round = x.roundEven := by
  have hlt : x.units < unitsPerOne := by omega
  have hrest : x.units % unitsPerOne = x.units := Nat.mod_eq_of_lt hlt
  have hwhole : x.units / unitsPerOne = 0 := Nat.div_eq_of_lt hlt
  refine ⟨?_, round_of_ne (by omega)⟩
  rw [tieToEven_of_even hx (by rw [hwhole]; decide) (by rw [hwhole]), trunc_of_whole hx, roundEven,
    toIntegral, if_pos hx, if_pos (by omega)]

/-- Any way to cut will do that cuts numbers right. -/
theorem tieToEven_eq {cut : Single → Single} (hcut : ∀ y, y.isNaN = false → cut y = y.trunc)
    (hx : x.isFinite = true) : tieToEven cut x = tieToEven trunc x := by
  have hhalved : (mul .keep x.trunc half).isNaN = false := by
    rw [mul_keep (trunc_exact hx).1 (by decide), isNaN_ofRatio]
  rw [tieToEven, tieToEven, hcut x (isNaN_of_isFinite hx), hcut _ hhalved]

/-- Whichever way is chosen for a finite value, it is right. -/
theorem choice_eq_roundEven (hx : x.isFinite = true) :
    (if eq .keep (sub .keep x x.floor) half then tieToEven trunc x else x.round) = x.roundEven := by
  rcases Nat.lt_or_ge (2 * x.units) unitsPerOne with hsmall | hlarge
  · obtain ⟨htie, hround⟩ := roundEven_of_small hx hsmall
    rw [htie, hround, ite_self]
  · split
    case isTrue h => exact tieToEven_of_tie hx ((eq_half_iff hx hlarge).1 h)
    case isFalse h => exact round_of_ne (mt (eq_half_iff hx hlarge).2 h)

end Single

/-! ## Lanes -/

namespace Lane

/-- A lane rounded halves to even. -/
def roundEvenLane (lib : MathLibrary) (B : Backend) (x : Single) : Single :=
  if Single.eq .keep (Single.sub .keep x (floorLane lib B x)) .half then
    Single.tieToEven (truncLane lib B) x
  else roundLane lib B x

variable {lib : MathLibrary} (hlib : lib.Exact) (B : Backend) {x : Single}
include hlib

theorem roundEvenLane_of_isFinite (hx : x.isFinite = true) :
    roundEvenLane lib B x = x.roundEven := by
  have hnumber := Single.isNaN_of_isFinite hx
  rw [roundEvenLane, hlib.floorLane_eq B hnumber, hlib.roundLane_eq B hnumber,
    Single.tieToEven_eq (fun _ => hlib.truncLane_eq B) hx, Single.choice_eq_roundEven hx]

/-- Infinity and NaN have no difference from their floor, so nothing looks like a tie. -/
theorem roundEvenLane_of_not_isFinite (hx : x.isFinite = false) :
    roundEvenLane lib B x = roundLane lib B x := by
  refine if_neg ?_
  have hnan : (Single.sub .keep x (floorLane lib B x)).isNaN = true := by
    cases hn : x.isNaN
    · rw [hlib.floorLane_eq B hn, Single.floor, Single.toIntegral_of_not_isFinite _ hx]
      exact Single.sub_self_of_not_isFinite hx
    · exact Single.isNaN_sub _ _ (.inl hn)
  rw [Single.eq_of_isNaN _ _ (.inl hnan)]
  exact Bool.false_ne_true

theorem follows_roundEvenLane : Follows (roundEvenLane lib B) Single.roundEven := by
  intro x
  cases hx : x.isFinite
  case true => exact .inl (roundEvenLane_of_isFinite hlib B hx)
  case false =>
    have hself : x.roundEven = x.round := by
      rw [Single.roundEven, Single.round, Single.toIntegral_of_not_isFinite _ hx,
        Single.toIntegral_of_not_isFinite _ hx]
    rw [roundEvenLane_of_not_isFinite hlib B hx, hself]
    exact hlib.roundLane B x

/-- The four-lane unit keeps the pattern of a NaN. -/
theorem roundEvenLane_quad (x : Single) : roundEvenLane lib .quad x = x.roundEven := by
  cases hx : x.isFinite
  · have hself : x.round = x := Single.toIntegral_of_not_isFinite _ hx
    rw [roundEvenLane_of_not_isFinite hlib .quad hx, Single.roundEven,
      Single.toIntegral_of_not_isFinite _ hx]
    exact hself
  · exact roundEvenLane_of_isFinite hlib .quad hx

end Lane

/-! ## Batches -/

namespace Batch

variable {B : Backend} {n : Nat} {lib : MathLibrary}

theorem lane_ties (x : Batch B .float n) (i : Fin (width B n)) :
    (x.ties lib).lane i
      = Single.eq .keep (Single.sub .keep (x.lane i) (Lane.floorLane lib B (x.lane i))) .half := by
  simp [ties, fract, Lane.eq, Lane.sub]

theorem lane_tiesToEven (x : Batch B .float n) (i : Fin (width B n)) :
    (x.tiesToEven lib).lane i = Single.tieToEven (Lane.truncLane lib B) (x.lane i) := by
  rw [Single.tieToEven, ← ite_not]
  simp [tiesToEven, zeros, Kind.zeroLane, Lane.eq, Lane.le, Lane.mul, Lane.add]

/-- Rounding halves to even rounds every lane so, whatever the other lanes hold. -/
theorem lane_roundEven (x : Batch B .float n) (i : Fin (width B n)) :
    (x.roundEven lib).lane i = Lane.roundEvenLane lib B (x.lane i) := by
  rw [roundEven_eq, lane_assignMasked, lane_ties, lane_tiesToEven, lane_round]
  rfl

/-- Rounding halves to even gives the nearest integer, the even one of two, under the sign of the
value. So it commutes with negation, bit for bit, for numbers, and on the four-lane unit for NaN as
well; and to leave out the ties where there are none changes no lane. The functions of the library
are taken to be exact. -/
theorem roundEven_halves_to_even (hlib : lib.Exact) (x : Batch B .float n) :
    (∀ i, Rounded IsNearestEven (x.lane i) ((x.roundEven lib).lane i)) ∧
      (∀ i, B = .quad ∨ Single.isNaN (x.lane i) = false →
        ((-x).roundEven lib).lane i = Single.neg ((x.roundEven lib).lane i)) ∧
      x.roundEven lib = (x.round lib).assignMasked (x.ties lib) (x.tiesToEven lib) := by
  refine ⟨fun i => ?_, fun i h => ?_, roundEven_eq lib x⟩
  · rw [lane_roundEven]
    exact (Single.rounded_roundEven _).of_follows (Lane.follows_roundEvenLane hlib B)
  · have hlane : ∀ y : Single, B = .quad ∨ y.isNaN = false →
        Lane.roundEvenLane lib B y = y.roundEven := by
      rintro y (rfl | hy)
      · exact Lane.roundEvenLane_quad hlib y
      · exact (Lane.follows_roundEvenLane hlib B).eq ((Single.isNaN_toIntegral _ y).trans hy)
    rw [lane_roundEven, lane_roundEven, lane_neg, hlane _ h, hlane, Single.roundEven_neg]
    exact h.imp_right (Single.isNaN_neg _).trans

/-- The value above minus one half, `5/2`, `-1/2` and `-7/2`. The first one is seen as a tie and is
none; its nearest integer is zero, under its own sign. -/
theorem roundEven_halves_to_even_boundaries :
    let x : Batch .quad .float 1 := ⟨#v[#v[0xbeffffff, 0x40200000, 0xbf000000, 0xc0600000]]⟩
    let lib := MathLibrary.double
    lib.Exact ∧ (x.ties lib).toList = [true, true, true, true] ∧
      (∀ i, Single.isFinite (x.lane i) = true ∧
        ∃ k : ℤ, IsNearestEven (Single.value (x.lane i)) k ∧
          Single.value ((x.roundEven lib).lane i) = k) ∧
      (x.roundEven lib).toList.map Single.bits
        = [0x80000000, 0x40000000, 0x80000000, 0xc0800000] := by
  intro x lib
  have hlib : lib.Exact := MathLibrary.lawful_double.toExact
  have hx : ∀ i, Single.isFinite (x.lane i) = true := by decide +kernel
  refine ⟨hlib, by decide +kernel, fun i => ⟨hx i, ?_⟩, by decide +kernel⟩
  obtain ⟨hrounded, -, -⟩ := roundEven_halves_to_even hlib x
  exact ((hrounded i).finite (hx i)).2.2

end Batch

end Wavefront
