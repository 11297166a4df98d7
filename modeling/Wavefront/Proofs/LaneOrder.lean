import Wavefront.Proofs.BatchOps
import Wavefront.Proofs.Updates

/-!
# The order of lanes

A batch is built, read and updated in several ways, each with an arithmetic of its own: register by
register from a slice, lane by lane in a buffer, by the quotient and the rest of a number. All of
them have the same list of lanes in mind, and each is described here by what it does to that list:

* asking a function is asking it for the numbers of the list, in order (`lanes_ofFnM`);
* a register is a part of the list (`toList_register`), and writing it writes that part
  (`toList_set`);
* a slice is the beginning of a list (`toList_ofSlice`), and a lane an element of it.

Main statement: `one_lane_order`.
-/

namespace Wavefront

/-! ## Asking in groups -/

section Asking

variable {m : Type → Type} [Monad m] [LawfulMonad m] {α β γ δ : Type}

/-- A vector of answers is a list of answers to the numbers in order. -/
theorem toList_ofFnM_eq_mapM {n : ℕ} (f : Fin n → m α) :
    Vector.toList <$> Vector.ofFnM f = (List.finRange n).mapM f := by
  rw [Vector.toList_ofFnM]
  induction n with
  | zero => simp
  | succ n ih =>
    rw [List.ofFnM_succ, ih, List.finRange_succ, List.mapM_cons, List.mapM_map]
    rfl

/-- Asking group by group is asking all members of the groups, one after the other. -/
theorem flatMap_mapM {g : α → m β} {part : β → List δ} {members : α → List γ} {f : γ → m δ}
    (hg : ∀ x, part <$> g x = (members x).mapM f) (xs : List α) :
    List.flatMap part <$> xs.mapM g = (xs.flatMap members).mapM f := by
  induction xs with
  | nil => simp
  | cons x xs ih =>
    rw [List.flatMap_cons, List.mapM_append, ← hg, ← ih]
    simp

end Asking

namespace Reg

variable {B : Backend} {k : Kind}

/-- A register made of a vector has the list of that vector. -/
theorem toList_ofFn_get (lanes : Vector k.Lane B.lanes) :
    (ofFn lanes.get : Reg B k).toList = lanes.toList := by
  have hlane : (ofFn lanes.get : Reg B k).lane = lanes.get := funext fun i => lane_ofFn _ i
  rw [toList, hlane]
  refine List.ext_getElem (by simp) fun i h _ => ?_
  rw [List.getElem_ofFn]
  rfl

end Reg

namespace Batch

variable {B : Backend} {k : Kind} {n : Nat}

/-! ## Building from a function -/

/-- The numbers of all lanes are those of the first register, then those of the second, and so
on. -/
theorem finRange_width :
    List.finRange (width B n)
      = (List.finRange n).flatMap fun r => (List.finRange B.lanes).map (laneAt r) := by
  simp only [List.flatMap, List.finRange, List.map_ofFn]
  exact List.ofFn_mul (m := n) (n := B.lanes) fun i : Fin (width B n) => i

/-- A batch made by asking a function asks it for every lane once, in order, and has the answers. -/
theorem lanes_ofFnM {m : Type → Type} [Monad m] [LawfulMonad m] (f : Fin (width B n) → m k.Lane) :
    (fun b : Batch B k n => List.ofFn b.lane) <$> ofFnM f
      = (List.finRange (width B n)).mapM f := by
  have hregister : ∀ r : Fin n,
      Reg.toList <$> (do
        let answers ← Vector.ofFnM fun j : Fin B.lanes => f (laneAt r j)
        return (Reg.ofFront (answers.toList ++ (Reg.emptyBuffer k).drop B.lanes) : Reg B k))
      = ((List.finRange B.lanes).map (laneAt r)).mapM f := by
    intro r
    rw [List.mapM_map, ← toList_ofFnM_eq_mapM]
    simp only [Reg.ofFront_append, bind_pure_comp, Functor.map_map, Reg.toList_ofFn_get]
    rfl
  rw [finRange_width, ← flatMap_mapM hregister, ← toList_ofFnM_eq_mapM]
  simp only [ofFnM, ← toList_eq_ofFn, toList_eq_flatMap, Functor.map_map, bind_pure_comp]

/-! ## Registers -/

theorem length_toList (b : Batch B k n) : b.toList.length = width B n := by
  rw [toList_eq_ofFn, List.length_ofFn]

/-- The lanes in front of a register are those of the registers in front of it. -/
theorem take_toList (b : Batch B k n) (r : ℕ) :
    b.toList.take (r * B.lanes) = (b.regs.toList.take r).flatMap Reg.toList := by
  rw [toList_eq_flatMap]
  induction b.regs.toList generalizing r with
  | nil => simp
  | cons reg regs ih =>
    cases r with
    | zero => simp
    | succ r =>
      have hwhole : reg.toList.take (r * B.lanes + B.lanes) = reg.toList :=
        List.take_of_length_le (by simp)
      simp [List.take_append, Nat.succ_mul, ih, hwhole]

/-- The lanes from a register on are those of the registers from it on. -/
theorem drop_toList (b : Batch B k n) (r : ℕ) :
    b.toList.drop (r * B.lanes) = (b.regs.toList.drop r).flatMap Reg.toList := by
  rw [toList_eq_flatMap]
  induction b.regs.toList generalizing r with
  | nil => simp
  | cons reg regs ih =>
    cases r with
    | zero => simp
    | succ r => simp [List.drop_append, Nat.succ_mul, ih]

/-- A register has its part of the list of all lanes. -/
theorem toList_register (b : Batch B k n) (r : Fin n) :
    (b.regs.get r).toList = (b.toList.drop (r * B.lanes)).take B.lanes := by
  have hlength : r.val < b.regs.toList.length := by simp
  rw [drop_toList, List.drop_eq_getElem_cons hlength, List.flatMap_cons,
    List.take_left' (Reg.length_toList _)]
  rfl

/-- Writing a register writes its part of the list. -/
theorem toList_set (b : Batch B k n) (r : Fin n) (reg : Reg B k) :
    (⟨b.regs.set r reg r.isLt⟩ : Batch B k n).toList
      = b.toList.take (r * B.lanes) ++ reg.toList ++ b.toList.drop ((r + 1) * B.lanes) := by
  rw [take_toList, drop_toList, toList_eq_flatMap, Vector.toList_set,
    List.set_eq_take_append_cons_drop, if_pos (by simp)]
  simp

/-- The register with a number, as a batch of its own. -/
theorem part_eq (b : Batch B k n) (r : Fin n) : b.part r = .ok ⟨#v[b.regs.get r]⟩ := by
  rw [part, register, dif_pos r.isLt]
  rfl

/-- A batch of one register has the list of that register. -/
theorem toList_one (p : Batch B k 1) : p.toList = (p.regs.get 0).toList := by
  obtain ⟨reg, hreg⟩ : ∃ reg, p.regs.toList = [reg] := List.length_eq_one_iff.1 (by simp)
  have hfirst : p.regs.get 0 = reg := by
    refine (Vector.getElem_toList (by simp)).symm.trans ?_
    simp [hreg]
  rw [toList_eq_flatMap, hreg, hfirst]
  simp

/-- All parts together make the batch. -/
theorem ofParts_parts (b : Batch B k n) :
    ofParts <$> (Vector.ofFnM fun r : Fin n => b.part r) = .ok b := by
  have hparts : (Vector.ofFnM fun r : Fin n => b.part r)
      = .ok (Vector.ofFn fun r => ⟨#v[b.regs.get r]⟩) := by
    simp only [part_eq]
    exact Vector.ofFnM_pure
  rw [hparts]
  have hregs : (Vector.ofFn fun r : Fin n => (⟨#v[b.regs.get r]⟩ : Batch B k 1)).map
      (fun p => p.regs[0]) = b.regs := by
    refine Vector.ext fun r hr => ?_
    simp [Vector.get]
  exact congrArg (fun regs => Except.ok (⟨regs⟩ : Batch B k n)) hregs

/-! ## Slices -/

/-- A slice that is long enough begins with the lanes of the batch that is made of it. -/
theorem toList_ofSlice {values : List k.Lane} (h : width B n ≤ values.length) :
    ∃ b : Batch B k n, ofSlice values = .ok b ∧ b.toList = values.take (width B n) := by
  refine ⟨_, (ofSlice_refused values).2 (not_lt.2 h), ?_⟩
  rw [toList_eq_ofFn]
  refine List.ext_getElem (by simp [h]) fun i hi _ => ?_
  have hi : i < values.length := by
    rw [List.length_ofFn] at hi
    omega
  simp [hi]

/-- The list of a batch is a slice that makes it again. -/
theorem ofSlice_toList (b : Batch B k n) : ofSlice b.toList = .ok b := by
  have hlength := b.length_toList
  obtain ⟨b', hb', hlist⟩ := toList_ofSlice (B := B) (n := n) hlength.ge
  rw [← hlength, List.take_length, toList_eq_ofFn, toList_eq_ofFn, List.ofFn_inj] at hlist
  rw [hb', ext_lane (congrFun hlist)]

/-! ## Reading and writing -/

/-- Everything that is read from a batch is read from one list of lanes. -/
structure ReadInOrder (b : Batch B k n) : Prop where
  /-- lanes by their numbers -/
  lane : ∀ i : Fin (width B n), b.getLane i = .ok (b.lane i)
  /-- refused exactly where there is no lane -/
  lane_refused : ∀ i, (∃ e, b.getLane i = .error e) ↔ width B n ≤ i
  /-- all lanes -/
  all : b.toList = List.ofFn b.lane
  /-- a register has the lanes from `r * B.lanes` up to those of the next one -/
  regs : ∀ r : Fin n, (b.regs.get r).toList = (b.toList.drop (r * B.lanes)).take B.lanes
  /-- as a batch of its own it has the same -/
  part : ∀ r : Fin n, ∃ p, b.part r = .ok p ∧
    p.toList = (b.toList.drop (r * B.lanes)).take B.lanes
  /-- the parts are the batch -/
  parts : ofParts <$> (Vector.ofFnM fun r : Fin n => b.part r) = .ok b
  /-- and so are all its lanes, as a slice -/
  slice : ofSlice b.toList = .ok b

/-- Everything that is written to a batch is written to one list of lanes. -/
structure WrittenInOrder (b : Batch B k n) : Prop where
  /-- one lane, and no other -/
  lane : ∀ (i : Fin (width B n)) (v : k.Lane), ∃ b', b.setLane i v = .ok b' ∧ b'.lane i = v ∧
    ∀ j, j ≠ i → b'.lane j = b.lane j
  /-- refused exactly where there is no lane -/
  lane_refused : ∀ i v, (∃ e, b.setLane i v = .error e) ↔ width B n ≤ i
  /-- the lanes of one register, and no other -/
  part : ∀ (r : Fin n) (p : Batch B k 1), ∃ b', b.setPart r p = .ok b' ∧
    b'.toList = b.toList.take (r * B.lanes) ++ p.toList ++ b.toList.drop ((r + 1) * B.lanes)

theorem readInOrder (b : Batch B k n) : b.ReadInOrder where
  lane i := getLane_of_lt b i.isLt
  lane_refused i := by
    refine ⟨?_, fun h => ⟨_, getLane_of_le b h⟩⟩
    rintro ⟨e, he⟩
    by_contra h
    rw [getLane_of_lt b (not_le.1 h)] at he
    cases he
  all := b.toList_eq_ofFn
  regs := b.toList_register
  part r := by
    refine ⟨_, b.part_eq r, ?_⟩
    rw [toList_one, ← toList_register]
    rfl
  parts := b.ofParts_parts
  slice := b.ofSlice_toList

theorem writtenInOrder (b : Batch B k n) : b.WrittenInOrder where
  lane i v := by
    refine ⟨_, (b.setLane_refused i v).2 (not_not.2 i.isLt), ?_, fun j hj => ?_⟩
    · rw [lane_ofFn, if_pos rfl]
    · rw [lane_ofFn, if_neg (Fin.val_ne_of_ne hj)]
  lane_refused i v := (setLane_refused b i v).exists_error_iff.trans not_lt
  part r p := by
    refine ⟨_, dif_pos r.isLt, ?_⟩
    rw [toList_one]
    exact b.toList_set r p.regs[0]

open Script

/-- Every way to build, read and update a batch is about one and the same list of lanes. A function
is asked for each of them once, in order; a slice that is long enough begins with them, and one that
is too short is refused; reading and writing are as `ReadInOrder` and `WrittenInOrder` say; and what
is asked of a lane that is not there is refused and changes nothing. -/
theorem one_lane_order :
    (∀ (m : Type → Type) [Monad m] [LawfulMonad m] (f : Fin (width B n) → m k.Lane),
      (fun b : Batch B k n => List.ofFn b.lane) <$> ofFnM f = (List.finRange (width B n)).mapM f) ∧
    (∀ values : List k.Lane,
      ((∃ e, (ofSlice values : Except Fault (Batch B k n)) = .error e) ↔
        values.length < width B n) ∧
      (width B n ≤ values.length → ∃ b : Batch B k n, ofSlice values = .ok b ∧
        List.ofFn b.lane = values.take (width B n)) ∧
      (values.length = width B n →
        toList <$> (ofSlice values : Except Fault (Batch B k n)) = .ok values)) ∧
    (∀ b : Batch B k n, b.ReadInOrder ∧ b.WrittenInOrder) ∧
    ∀ (f : Flow B n (Store B n)) (b : Batch B k n) (i : ℕ), width B n ≤ i →
      (∀ (keep : Option String) (e : Expr), e.eval f.state.scope = .ok ⟨k, b⟩ →
        (Action.query keep (.probe (.lane e i))).run f
          = (f, .failed (.fault (.laneOutOfRange i (width B n))) none)) ∧
      ∀ (name : String) (literal : Literal) (v : k.Lane), literal.lane k = .ok v →
        f.state.scope.get name = .ok ⟨k, b⟩ →
        (Action.update name (.setLane i literal)).run f
          = (f, .failed (.fault (.laneOutOfRange i (width B n))) (some ⟨k, b.toList⟩)) := by
  refine ⟨fun m _ _ f => lanes_ofFnM f, fun values => ⟨(ofSlice_refused values).exists_error_iff,
    fun h => ?_, fun h => ?_⟩, fun b => ⟨b.readInOrder, b.writtenInOrder⟩,
    fun f b i hi => ⟨fun keep e he => ?_, fun name literal v hv hx => ?_⟩⟩
  · obtain ⟨b, hb, hlist⟩ := toList_ofSlice h
    exact ⟨b, hb, b.toList_eq_ofFn ▸ hlist⟩
  · obtain ⟨b, hb, hlist⟩ := toList_ofSlice (B := B) (n := n) h.ge
    rw [← h, List.take_length] at hlist
    rw [hb]
    exact congrArg Except.ok hlist
  · have hlane := getLane_of_le b hi
    rw [Action.run_query_refused (Query.lane_refused he hlane), fail_of_unlogged rfl]
  · have hlane := setLane_of_le b hi v
    rw [Action.run_update_refused hx (Update.setLane_refused hv hlane), fail_of_unlogged rfl]
    rfl

/-- Eight lanes in two registers: a function that counts how often it was asked, a slice with a
ninth number, and a write to a ninth lane. -/
theorem one_lane_order_two_registers :
    let b : Batch .quad .int 2 := ⟨#v[#v[10, 11, 12, 13], #v[14, 15, 16, 17]]⟩
    let lanes : List Word := [10, 11, 12, 13, 14, 15, 16, 17]
    let ask : Fin (width .quad 2) → StateM ℕ Word := fun _ =>
      fun asked => (BitVec.ofNat 32 (10 + asked), asked + 1)
    let f : Flow .quad 2 (Store .quad 2) :=
      ⟨WriteMask.fresh, (Store.fresh .double).put "x" ⟨.int, b⟩, []⟩
    ((fun b : Batch .quad .int 2 => List.ofFn b.lane) <$> ofFnM ask).run 0 = (lanes, 8) ∧
      width .quad 2 ≤ (lanes ++ [18]).length ∧
      (∃ b : Batch .quad .int 2, ofSlice (lanes ++ [18]) = .ok b ∧ List.ofFn b.lane = lanes) ∧
      width .quad 2 ≤ 8 ∧ f.state.scope.get "x" = .ok ⟨.int, b⟩ ∧
      (Literal.int 18).lane .int = .ok (18 : Word) ∧
      (Action.update "x" (.setLane 8 (.int 18))).run f
        = (f, .failed (.fault (.laneOutOfRange 8 8)) (some ⟨.int, lanes⟩)) := by
  intro b lanes ask f
  have hslice : width .quad 2 ≤ (lanes ++ [18]).length := by decide
  have hwide : width .quad 2 ≤ 8 := by decide
  have hlanes : b.toList = lanes := by decide +kernel
  obtain ⟨hasked, hslices, -, hrefused⟩ := one_lane_order (B := .quad) (k := .int) (n := 2)
  refine ⟨?_, hslice, (hslices _).2.1 hslice, hwide, rfl, rfl, ?_⟩
  · rw [hasked]
    rfl
  · rw [← hlanes]
    exact (hrefused f b 8 hwide).2 "x" _ _ rfl rfl

end Batch

end Wavefront
