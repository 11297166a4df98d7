import Wavefront.Batch.Lanes

/-!
# Sequences of masked assignments

A masked assignment replaces whole lanes: on each lane it either puts the source's value, bit for
bit, or leaves what was there, and no lane of a mask is anything between true and false. So of a
sequence of them each lane remembers one only, the last whose mask was true on it
(`lane_assignAll`).

All else follows from that. Assignments that reach no lane in common may change places
(`assignAll_swap`), an assignment everywhere forgets the past, and one under a condition followed by
one under its negation is a selection, whatever was there before.

Main statement: `masked_assignment_laws`.
-/

namespace Wavefront.Batch

variable {B : Backend} {k : Kind} {n : Nat} {source source' : Batch B k n} {mask mask' : Mask B n}
  {i : Fin (width B n)}

/-- Masked assignments one after the other, each given by its mask and its source. -/
def assignAll (b : Batch B k n) (writes : List (Mask B n × Batch B k n)) : Batch B k n :=
  writes.foldl (fun b write => b.assignMasked write.1 write.2) b

theorem assignAll_append (b : Batch B k n) (before after : List (Mask B n × Batch B k n)) :
    b.assignAll (before ++ after) = (b.assignAll before).assignAll after :=
  List.foldl_append

/-- The sources of the writes that reach a lane, in order. -/
def reaching (writes : List (Mask B n × Batch B k n)) (i : Fin (width B n)) :
    List (Batch B k n) :=
  (writes.filter fun write => write.1.lane i).map Prod.snd

theorem reaching_cons (write : Mask B n × Batch B k n) (writes : List (Mask B n × Batch B k n)) :
    reaching (write :: writes) i =
      if write.1.lane i then write.2 :: reaching writes i else reaching writes i := by
  rw [reaching, List.filter_cons]
  split <;> rfl

/-- What comes last depends on what stands in for nothing only where there is nothing. -/
theorem lane_getLastD_congr {c : Batch B k n} (h : b.lane i = c.lane i)
    (batches : List (Batch B k n)) : (batches.getLastD b).lane i = (batches.getLastD c).lane i := by
  cases batches with
  | nil => exact h
  | cons a batches => rw [List.getLastD_cons, List.getLastD_cons]

/-- Each lane ends with the source of the last write that reaches it, or as it was. -/
theorem lane_assignAll (b : Batch B k n) (writes : List (Mask B n × Batch B k n))
    (i : Fin (width B n)) :
    (b.assignAll writes).lane i = ((reaching writes i).getLastD b).lane i := by
  induction writes generalizing b with
  | nil => rfl
  | cons write writes ih =>
    have hlane := lane_assignMasked b write.1 write.2 i
    refine (ih (b.assignMasked write.1 write.2)).trans ?_
    rw [reaching_cons]
    split
    case isTrue hi =>
      rw [List.getLastD_cons]
      exact lane_getLastD_congr (hlane.trans (if_pos hi)) _
    case isFalse hi => exact lane_getLastD_congr (hlane.trans (if_neg hi)) _

theorem assignMasked_of_all (h : ∀ i, mask.lane i = true) (b source : Batch B k n) :
    b.assignMasked mask source = source :=
  ext_lane fun i => by rw [lane_assignMasked, if_pos (h i)]

theorem assignMasked_of_none (h : ∀ i, mask.lane i = false) (b source : Batch B k n) :
    b.assignMasked mask source = b :=
  ext_lane fun i => by rw [lane_assignMasked, if_neg (Bool.eq_false_iff.1 (h i))]

/-- One choice under a condition and the other under its negation. -/
theorem assignMasked_not (b : Batch B k n) (cond : Mask B n) (ifTrue ifFalse : Batch B k n) :
    (b.assignMasked cond ifTrue).assignMasked (~~~cond) ifFalse = select cond ifTrue ifFalse := by
  refine ext_lane fun i => ?_
  rw [select, lane_assignMasked, lane_assignMasked, lane_assignMasked, Mask.lane_not]
  cases cond.lane i <;> rfl

/-- Writes that share no lane may change places. -/
theorem assignMasked_comm (h : ∀ i, ¬(mask.lane i = true ∧ mask'.lane i = true))
    (b source source' : Batch B k n) :
    (b.assignMasked mask source).assignMasked mask' source' =
      (b.assignMasked mask' source').assignMasked mask source := by
  refine ext_lane fun i => ?_
  simp only [lane_assignMasked]
  by_cases hi : mask.lane i = true
  · rw [if_neg fun hi' => h i ⟨hi, hi'⟩, if_pos hi, if_pos hi]
  · rw [if_neg hi, if_neg hi]

theorem assignAll_swap (h : ∀ i, ¬(mask.lane i = true ∧ mask'.lane i = true))
    (b : Batch B k n) (before after : List (Mask B n × Batch B k n)) :
    b.assignAll (before ++ (mask, source) :: (mask', source') :: after) =
      b.assignAll (before ++ (mask', source') :: (mask, source) :: after) := by
  rw [assignAll_append, assignAll_append]
  exact congrArg (assignAll · after) (assignMasked_comm h _ source source')

/-- Of any sequence of masked assignments each lane keeps, bit for bit, the value of the last one
whose mask is true on it, or its own if there is none. So an assignment with all lanes is the plain
one, one without any changes nothing, two under a condition and its negation are a selection, and
neighbours in a sequence that share no lane may change places. -/
theorem masked_assignment_laws (b : Batch B k n) (writes : List (Mask B n × Batch B k n)) :
    (∀ i, (b.assignAll writes).lane i =
      (((writes.filter fun write => write.1.lane i).map Prod.snd).getLastD b).lane i) ∧
    (∀ mask source, (∀ i, mask.lane i = true) → b.assignAll [(mask, source)] = source) ∧
    (∀ mask source, (∀ i, mask.lane i = false) → b.assignAll [(mask, source)] = b) ∧
    (∀ cond ifTrue ifFalse,
      b.assignAll [(cond, ifTrue), (~~~cond, ifFalse)] = select cond ifTrue ifFalse) ∧
    ∀ before after mask mask' source source',
      writes = before ++ (mask, source) :: (mask', source') :: after →
      (∀ i, ¬(mask.lane i = true ∧ mask'.lane i = true)) →
      b.assignAll writes = b.assignAll (before ++ (mask', source') :: (mask, source) :: after) := by
  refine ⟨fun i => lane_assignAll b writes i, fun mask source h => assignMasked_of_all h b source,
    fun mask source h => assignMasked_of_none h b source,
    fun cond ifTrue ifFalse => assignMasked_not b cond ifTrue ifFalse, ?_⟩
  rintro before after mask mask' source source' rfl h
  exact assignAll_swap h b before after

/-- Four lanes, of which the first is a NaN with a payload and the second a negative zero. Both
survive where no mask is true, and so do those of the sources where one is; the two writes share no
lane. -/
theorem masked_assignment_laws_payloads :
    let b : Batch .quad .float 1 := ⟨#v[#v[0x7fc00001, 0x80000000, 0x3f800000, 0x3f800000]]⟩
    let source : Batch .quad .float 1 := ⟨#v[#v[0, 0, 0xffc00002, 0]]⟩
    let source' : Batch .quad .float 1 := ⟨#v[#v[0, 0, 0, 0x80000000]]⟩
    let mask : Mask .quad 1 := ofFn fun i => i.val == 2
    let mask' : Mask .quad 1 := ofFn fun i => i.val == 3
    (∀ i, ¬(mask.lane i = true ∧ mask'.lane i = true)) ∧
      b.assignAll [(mask, source), (mask', source')] =
        b.assignAll [(mask', source'), (mask, source)] ∧
      (b.assignAll [(mask, source), (mask', source')]).toList.map Single.bits =
        [0x7fc00001, 0x80000000, 0xffc00002, 0x80000000] := by
  intro b source source' mask mask'
  have hdisjoint : ∀ i, ¬(mask.lane i = true ∧ mask'.lane i = true) := by decide +kernel
  obtain ⟨-, -, -, -, hswap⟩ := masked_assignment_laws b [(mask, source), (mask', source')]
  have hcommute := hswap [] [] mask mask' source source' rfl hdisjoint
  exact ⟨hdisjoint, hcommute, by decide +kernel⟩

end Wavefront.Batch
