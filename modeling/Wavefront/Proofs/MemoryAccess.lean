import Mathlib.Data.List.FinRange
import Wavefront.Batch.Lanes
import Wavefront.Batch.Memory

/-!
# Memory accesses

A checked access looks at the length of a slice and at its first address, and then moves register
after register. The two looks are enough: the registers of a batch lie behind one another in the
slice, and the bytes of one are a multiple of the alignment (`align_dvd`), so none reaches past the
lanes and every one is aligned if the first is.

* `StoredBy` is what moving some of the registers to a memory has done to it. It has one step lemma,
  for one register more, and `exists_storeAligned` is the induction on the registers.
* `loadAligned_run` reads the lanes from the cells, whatever is in them.

Main statement: `checked_access`.
-/

namespace Wavefront

/-! ## Running an access -/

namespace Access

variable {k : Kind} {α β : Type} {m m' : Memory k}

@[simp] theorem run_pure (a : α) (m : Memory k) : (pure a : Access k α).run m = (.ok a, m) := rfl

@[simp] theorem run_get (m : Memory k) : (get : Access k (Memory k)).run m = (.ok m, m) := rfl

@[simp] theorem run_modify (f : Memory k → Memory k) (m : Memory k) :
    (modify f : Access k Unit).run m = (.ok (), f m) := rfl

/-- A second access goes on with the memory that the first has left. -/
theorem run_bind {x : Access k α} {a : α} (f : α → Access k β) (h : x.run m = (.ok a, m')) :
    (x >>= f).run m = (f a).run m' := by
  have h : StateT.run (ExceptT.run x) m = (pure (.ok a, m') : Id _) := h
  simp only [run, ExceptT.run_bind, StateT.run_bind, h]
  rfl

/-- Accesses that all answer, and leave the memory as it is, fill a vector. -/
theorem run_ofFnM {n : Nat} {f : Fin n → Access k α} {g : Fin n → α}
    (h : ∀ i, (f i).run m = (.ok (g i), m)) :
    (Vector.ofFnM f).run m = (.ok (Vector.ofFn g), m) := by
  induction n with
  | zero => simp [Vector.ofFnM_zero]
  | succ n ih =>
    rw [Vector.ofFnM_succ, run_bind _ (ih fun i => h i.castSucc), run_bind _ (h (Fin.last n)),
      run_pure, Vector.ofFn_succ]
    rfl

end Access

/-! ## Reading and writing -/

namespace Memory

variable {k : Kind} {m : Memory k} {cell x : Nat} {values : List k.Lane}

/-- A cell that there is holds what is read from it. -/
theorem getElem?_eq_some_iff_read {v : k.Lane} (h : x < m.cells.length) :
    m.cells[x]? = some v ↔ m.read x = v := by
  rw [read, List.getD_eq_getElem?_getD, List.getElem?_eq_getElem h, Option.getD_some,
    Option.some_inj]

theorem length_write (h : cell + values.length ≤ m.cells.length) :
    (m.write cell values).cells.length = m.cells.length := by
  simp only [write, List.length_append, List.length_take, List.length_drop]
  omega

theorem getElem?_write_inside (h : cell + values.length ≤ m.cells.length)
    (hcell : cell ≤ x) (hx : x < cell + values.length) :
    (m.write cell values).cells[x]? = values[x - cell]? := by
  have htake : (m.cells.take cell).length = cell := by
    rw [List.length_take]
    omega
  rw [write, List.append_assoc, List.getElem?_append_right (by omega), htake,
    List.getElem?_append_left (by omega)]

theorem getElem?_write_outside (h : cell + values.length ≤ m.cells.length)
    (hx : x < cell ∨ cell + values.length ≤ x) :
    (m.write cell values).cells[x]? = m.cells[x]? := by
  have hfront : (m.cells.take cell ++ values).length = cell + values.length := by
    rw [List.length_append, List.length_take]
    omega
  rw [write]
  obtain hx | hx := hx
  · rw [List.append_assoc, List.getElem?_append_left (by rw [List.length_take]; omega),
      List.getElem?_take_of_lt hx]
  · rw [List.getElem?_append_right (by omega), hfront, List.getElem?_drop]
    congr 1
    omega

end Memory

/-! ## Registers -/

namespace Reg

variable {B : Backend} {k : Kind} {m : Memory k} {cell : Nat}

/-- A register takes a multiple of its alignment. -/
theorem align_dvd (B : Backend) (k : Kind) : align B k ∣ B.lanes * k.bytes := by
  match B, k with
  | .scalar, k => exact Nat.dvd_mul_left _ _
  | .quad, .number _ => exact Nat.dvd_refl 16
  | .quad, .bool => exact Nat.one_dvd _

theorem requireAligned_run (h : m.address cell % align B k = 0) :
    (requireAligned B k cell).run m = (.ok (), m) := by
  rw [requireAligned, Access.run_bind _ (Access.run_get m)]
  simp [h]

/-- At an aligned address, a register is written as a whole. -/
theorem storeAligned_run (r : Reg B k) (h : m.address cell % align B k = 0) :
    (r.storeAligned cell).run m = (.ok (), m.write cell r.toList) := by
  rw [storeAligned, Access.run_bind _ (requireAligned_run h), Access.run_modify]

/-- At an aligned address, a register is read as a whole. -/
theorem loadAligned_run (h : m.address cell % align B k = 0) :
    (loadAligned cell : Access k (Reg B k)).run m =
      (.ok (ofFn fun j => m.read (cell + j.val)), m) := by
  rw [loadAligned, Access.run_bind _ (requireAligned_run h), Access.run_bind _ (Access.run_get m),
    Access.run_pure]

end Reg

/-! ## Batches -/

namespace Batch

variable {B : Backend} {k : Kind} {n offset length : Nat} {b : Batch B k n} {m m' : Memory k}

/-- A lane by the cells of its register. -/
theorem registerCell_add_placeOf (offset : Nat) (i : Fin (width B n)) :
    registerCell B offset (registerOf i) + placeOf i = offset + i := by
  have h := congrArg Fin.val (laneAt_registerOf i)
  simp only [laneAt] at h
  rw [registerCell, Nat.add_assoc, h]

/-- The registers of a batch lie within its lanes. -/
theorem registerCell_add_lanes_le (offset : Nat) (r : Fin n) :
    registerCell B offset r + B.lanes ≤ offset + width B n := by
  have h := Nat.mul_le_mul_right B.lanes r.isLt
  rw [Nat.succ_mul] at h
  rw [registerCell, width]
  omega

/-- If the first register is aligned, so are the others. -/
theorem address_registerCell (h : m.address offset % Reg.align B k = 0) (r : Nat) :
    m.address (registerCell B offset r) % Reg.align B k = 0 := by
  have hsplit : m.address (registerCell B offset r) =
      m.address offset + r * (B.lanes * k.bytes) := by
    rw [Memory.address, Memory.address, registerCell, Nat.add_mul, Nat.add_assoc, Nat.mul_assoc]
  rw [hsplit]
  exact Nat.mod_eq_zero_of_dvd (Nat.dvd_add (Nat.dvd_of_mod_eq_zero h)
    (Nat.dvd_trans (Reg.align_dvd B k) (Nat.dvd_mul_left _ r)))

/-! ### Stores -/

/-- What putting some registers of a batch at a cell has done to a memory. -/
structure StoredBy (b : Batch B k n) (offset : Nat) (registers : List (Fin n))
    (before after : Memory k) : Prop where
  base : after.base = before.base
  length : after.cells.length = before.cells.length
  written : ∀ i, registerOf i ∈ registers → after.cells[offset + i.val]? = some (b.lane i)
  kept : ∀ x, (∀ i : Fin (width B n), registerOf i ∈ registers → x ≠ offset + i) →
    after.cells[x]? = before.cells[x]?

theorem storedBy_nil : StoredBy b offset [] m m :=
  ⟨rfl, rfl, fun _ h => absurd h List.not_mem_nil, fun _ _ => rfl⟩

/-- The memory with one register written. -/
theorem storedBy_write (hroom : offset + width B n ≤ m.cells.length) (r : Fin n) :
    StoredBy b offset [r] m (m.write (registerCell B offset r) (b.regs.get r).toList) := by
  have hlast := registerCell_add_lanes_le (B := B) offset r
  have hfits : registerCell B offset r + (b.regs.get r).toList.length ≤ m.cells.length := by
    rw [Reg.length_toList]
    omega
  refine ⟨rfl, Memory.length_write hfits, fun i hi => ?_, fun x hx => ?_⟩
  · obtain rfl := List.mem_singleton.1 hi
    have hplace := registerCell_add_placeOf (B := B) offset i
    have hlt := (placeOf i).isLt
    rw [Memory.getElem?_write_inside hfits (by omega) (by rw [Reg.length_toList]; omega),
      ← hplace, Nat.add_sub_cancel_left, Reg.toList, List.getElem?_ofFn, dif_pos hlt]
    rfl
  · refine Memory.getElem?_write_outside hfits ?_
    rw [Reg.length_toList]
    by_contra hin
    -- a cell that the register takes is one of its lanes
    have hj : x - registerCell B offset r < B.lanes := by omega
    refine hx (laneAt r ⟨_, hj⟩) (by simp) ?_
    simp only [laneAt, registerCell] at hin ⊢
    omega

/-- One register, and then others. A lane of the first that they do not write again is kept. -/
theorem StoredBy.trans {before between after : Memory k} {front back : List (Fin n)}
    (h : StoredBy b offset front before between) (h' : StoredBy b offset back between after) :
    StoredBy b offset (front ++ back) before after := by
  refine ⟨h'.base.trans h.base, h'.length.trans h.length, fun i hi => ?_, fun x hx => ?_⟩
  · by_cases hback : registerOf i ∈ back
    · exact h'.written i hback
    · have hfront : registerOf i ∈ front := (List.mem_append.1 hi).resolve_right hback
      rw [h'.kept _ fun j hj heq => ?_, h.written i hfront]
      -- the others write the cell only if it is a lane of theirs, and a cell is one lane
      have hij : i = j := Fin.ext (Nat.add_left_cancel heq)
      exact hback (hij ▸ hj)
  · rw [h'.kept x fun i hi => hx i (List.mem_append_right _ hi),
      h.kept x fun i hi => hx i (List.mem_append_left _ hi)]

/-- No register of an aligned batch is refused. By induction on the registers; each finds a memory
with the same addresses and as much room as the one before. -/
theorem exists_storeRegisters (b : Batch B k n) (registers : List (Fin n))
    (halign : m.address offset % Reg.align B k = 0)
    (hroom : offset + width B n ≤ m.cells.length) :
    ∃ m', (forM registers fun r =>
        (b.regs.get r).storeAligned (registerCell B offset r)).run m = (.ok (), m') ∧
      StoredBy b offset registers m m' := by
  induction registers generalizing m with
  | nil => exact ⟨m, rfl, storedBy_nil⟩
  | cons r registers ih =>
    have hstep := storedBy_write (b := b) hroom r
    obtain ⟨m', hrun, hstored⟩ := ih (m := m.write (registerCell B offset r) (b.regs.get r).toList)
      halign (hstep.length ▸ hroom)
    refine ⟨m', ?_, hstep.trans hstored⟩
    rw [List.forM_cons, Access.run_bind _ (Reg.storeAligned_run _ (address_registerCell halign r)),
      hrun]

/-! ### Loads -/

/-- An aligned batch is read lane by lane. -/
theorem loadAligned_run (h : m.address offset % Reg.align B k = 0) :
    (loadAligned offset : Access k (Batch B k n)).run m =
      (.ok (ofFn fun i => m.read (offset + i.val)), m) := by
  rw [loadAligned, Access.run_bind _ (Access.run_ofFnM fun r =>
    Reg.loadAligned_run (address_registerCell h r)), Access.run_pure]
  simp only [ofFn, laneAt, registerCell, Nat.add_assoc]

/-! ### Checked accesses -/

/-- A slice of that length at that address has room for a batch and is aligned. -/
structure Fits (B : Backend) (k : Kind) (n length address : Nat) : Prop where
  room : width B n ≤ length
  aligned : address % Reg.align B k = 0

theorem checkSlice_of_short {address : Nat} (h : length < width B n) :
    checkSlice B k n length address = .error (.tooShort (width B n) length) := if_pos h

theorem checkSlice_of_misaligned {address : Nat} (h : width B n ≤ length)
    (ha : address % Reg.align B k ≠ 0) :
    checkSlice B k n length address = .error (.misaligned (Reg.align B k) address) := by
  rw [checkSlice, if_neg (Nat.not_lt.2 h), if_pos ha]

theorem checkSlice_of_fits {address : Nat} (h : Fits B k n length address) :
    checkSlice B k n length address = .ok () := by
  rw [checkSlice, if_neg (Nat.not_lt.2 h.room), if_neg (not_not_intro h.aligned)]

/-- A slice that does not fit is rejected. -/
theorem checkSlice_of_not_fits {address : Nat} (h : ¬Fits B k n length address) :
    ∃ e, checkSlice B k n length address = .error e := by
  rcases Nat.lt_or_ge length (width B n) with hl | hl
  · exact ⟨_, checkSlice_of_short hl⟩
  · exact ⟨_, checkSlice_of_misaligned hl fun ha => h ⟨hl, ha⟩⟩

/-- The registers of a batch are within a slice that fits, and aligned. -/
theorem Fits.register (h : Fits B k n length (m.address offset)) {r : Nat} (hr : r < n) :
    offset ≤ registerCell B offset r ∧ registerCell B offset r + B.lanes ≤ offset + length ∧
      m.address (registerCell B offset r) % Reg.align B k = 0 := by
  have hlast : registerCell B offset r + B.lanes ≤ offset + width B n :=
    registerCell_add_lanes_le offset ⟨r, hr⟩
  have hroom := h.room
  exact ⟨Nat.le_add_right _ _, by omega, address_registerCell h.aligned r⟩

/-- A slice that is rejected is not touched. -/
theorem store_of_rejected {e : MemoryError}
    (h : checkSlice B k n length (m.address offset) = .error e) :
    (b.store offset length).run m = (.ok (.error e), m) := by
  rw [store, Access.run_bind _ (Access.run_get m), h, Access.run_pure]

theorem load_of_rejected {e : MemoryError}
    (h : checkSlice B k n length (m.address offset) = .error e) :
    (load offset length : Access k (Except MemoryError (Batch B k n))).run m =
      (.ok (.error e), m) := by
  rw [load, Access.run_bind _ (Access.run_get m), h, Access.run_pure]

/-- A store to a slice that fits goes through all registers. -/
theorem Fits.exists_store (h : Fits B k n length (m.address offset)) (b : Batch B k n)
    (hslice : offset + length ≤ m.cells.length) :
    ∃ m', (b.store offset length).run m = (.ok (.ok ()), m') ∧
      StoredBy b offset (List.finRange n) m m' := by
  have hroom : offset + width B n ≤ m.cells.length :=
    Nat.le_trans (Nat.add_le_add_left h.room offset) hslice
  obtain ⟨m', hrun, hstored⟩ := exists_storeRegisters b (List.finRange n) h.aligned hroom
  refine ⟨m', ?_, hstored⟩
  rw [store, Access.run_bind _ (Access.run_get m), checkSlice_of_fits h]
  exact Access.run_bind _ hrun

theorem Fits.load_run (h : Fits B k n length (m.address offset)) :
    (load offset length : Access k (Except MemoryError (Batch B k n))).run m =
      (.ok (.ok (ofFn fun i => m.read (offset + i.val))), m) := by
  rw [load, Access.run_bind _ (Access.run_get m), checkSlice_of_fits h]
  exact Access.run_bind _ (loadAligned_run h.aligned)

/-- A load answers the batch whose lanes are the first cells of the slice. -/
theorem Fits.load_eq_iff (h : Fits B k n length (m.address offset))
    (hslice : offset + length ≤ m.cells.length) :
    (load offset length).run m = (.ok (.ok b), m) ↔
      ∀ i : Fin (width B n), m.cells[offset + i.val]? = some (b.lane i) := by
  have hin : ∀ i : Fin (width B n), offset + i.val < m.cells.length := by
    intro i
    have hi := i.isLt
    have hroom := h.room
    omega
  rw [h.load_run]
  constructor
  · intro hb i
    cases hb
    rw [Memory.getElem?_eq_some_iff_read (hin i), lane_ofFn]
  · intro hcells
    have hb : (ofFn fun i => m.read (offset + i.val)) = b := by
      apply ext_lane
      intro i
      rw [lane_ofFn, (Memory.getElem?_eq_some_iff_read (hin i)).1 (hcells i)]
    rw [hb]

theorem store_succeeds_iff (b : Batch B k n) (hslice : offset + length ≤ m.cells.length) :
    ((b.store offset length).run m).1 = .ok (.ok ()) ↔ Fits B k n length (m.address offset) := by
  refine ⟨fun hrun => ?_, fun h => ?_⟩
  · by_contra h
    obtain ⟨e, he⟩ := checkSlice_of_not_fits h
    rw [store_of_rejected he] at hrun
    cases hrun
  · obtain ⟨m', hrun, -⟩ := h.exists_store b hslice
    rw [hrun]

theorem load_succeeds_iff :
    (∃ c : Batch B k n, ((load offset length).run m).1 = .ok (.ok c)) ↔
      Fits B k n length (m.address offset) := by
  refine ⟨fun ⟨c, hrun⟩ => ?_, fun h => ⟨_, by rw [h.load_run]⟩⟩
  by_contra h
  obtain ⟨e, he⟩ := checkSlice_of_not_fits h
  rw [load_of_rejected he] at hrun
  cases hrun

/-- A checked access succeeds exactly on a slice that fits, and a slice that is rejected leaves the
memory as it was: one that is too short as such, whatever its address. In a slice that fits, every
register is within the slice and aligned, so no assertion fails; a store puts the lanes into the
first cells and changes no other, a load from the same slice answers the batch itself then, and a
load from any memory answers what the first cells hold. -/
theorem checked_access (m : Memory k) (offset length : Nat)
    (hslice : offset + length ≤ m.cells.length) (b : Batch B k n) :
    (((b.store offset length).run m).1 = .ok (.ok ()) ↔
      Fits B k n length (m.address offset)) ∧
    ((∃ c : Batch B k n, ((load offset length).run m).1 = .ok (.ok c)) ↔
      Fits B k n length (m.address offset)) ∧
    (length < width B n →
      (b.store offset length).run m = (.ok (.error (.tooShort (width B n) length)), m) ∧
      (load offset length : Access k (Except MemoryError (Batch B k n))).run m =
        (.ok (.error (.tooShort (width B n) length)), m)) ∧
    (width B n ≤ length → m.address offset % Reg.align B k ≠ 0 →
      (b.store offset length).run m =
        (.ok (.error (.misaligned (Reg.align B k) (m.address offset))), m) ∧
      (load offset length : Access k (Except MemoryError (Batch B k n))).run m =
        (.ok (.error (.misaligned (Reg.align B k) (m.address offset))), m)) ∧
    (Fits B k n length (m.address offset) →
      (∀ r < n, offset ≤ registerCell B offset r ∧
        registerCell B offset r + B.lanes ≤ offset + length ∧
        m.address (registerCell B offset r) % Reg.align B k = 0) ∧
      (∃ m', (b.store offset length).run m = (.ok (.ok ()), m') ∧
        m'.base = m.base ∧ m'.cells.length = m.cells.length ∧
        (∀ i : Fin (width B n), m'.cells[offset + i.val]? = some (b.lane i)) ∧
        (∀ x, x < offset ∨ offset + width B n ≤ x → m'.cells[x]? = m.cells[x]?) ∧
        (load offset length).run m' = (.ok (.ok b), m')) ∧
      ∃ c : Batch B k n, (load offset length).run m = (.ok (.ok c), m) ∧
        ∀ i, m.cells[offset + i.val]? = some (c.lane i)) := by
  refine ⟨store_succeeds_iff b hslice, load_succeeds_iff, fun hl => ?_, fun hl ha => ?_,
    fun h => ?_⟩
  · have hshort : checkSlice B k n length (m.address offset) =
        .error (.tooShort (width B n) length) := checkSlice_of_short hl
    exact ⟨store_of_rejected hshort, load_of_rejected hshort⟩
  · have hmisaligned := checkSlice_of_misaligned hl ha
    exact ⟨store_of_rejected hmisaligned, load_of_rejected hmisaligned⟩
  obtain ⟨m', hrun, hstored⟩ := h.exists_store b hslice
  have hwritten : ∀ i : Fin (width B n), m'.cells[offset + i.val]? = some (b.lane i) :=
    fun i => hstored.written i (List.mem_finRange _)
  -- the slice fits after the store as well, for the memory is where it was
  have h' : Fits B k n length (m'.address offset) := by
    rw [Memory.address, hstored.base]
    exact h
  have hload := (h'.load_eq_iff (hstored.length ▸ hslice)).2 hwritten
  refine ⟨fun r hr => h.register hr, ⟨m', hrun, hstored.base, hstored.length, hwritten, ?_, hload⟩,
    _, h.load_run, (h.load_eq_iff hslice).1 h.load_run⟩
  intro x hx
  refine hstored.kept x fun i _ => ?_
  have hi := i.isLt
  omega

/-- Two wide registers, in a memory that starts at a multiple of 64. The slice from the fifth cell
on is aligned: the batch is stored there, bit for bit, and loaded again. The slice from the fourth
cell on is not, and one that is a cell shorter as well is too short. -/
theorem checked_access_two_registers :
    let b : Batch .quad .float 2 := ⟨#v[#v[1, 2, 0x7fc00003, 4], #v[5, 0x80000000, 7, 8]]⟩
    let m : Memory .float := Memory.zeros 13
    4 + 9 ≤ m.cells.length ∧ Fits .quad .float 2 9 (m.address 4) ∧
      (∃ m', (b.store 4 9).run m = (.ok (.ok ()), m') ∧
        m'.cells.map Single.bits = [0, 0, 0, 0, 1, 2, 0x7fc00003, 4, 5, 0x80000000, 7, 8, 0] ∧
        (load 4 9).run m' = (.ok (.ok b), m')) ∧
      (b.store 3 8).run m = (.ok (.error (.misaligned 16 76)), m) ∧
      (b.store 3 7).run m = (.ok (.error (.tooShort 8 7)), m) := by
  intro b m
  have hfits : Fits .quad .float 2 9 (m.address 4) := ⟨by decide, by decide⟩
  obtain ⟨-, -, -, -, hfit⟩ := checked_access m 4 9 (by decide) b
  obtain ⟨-, ⟨m', hrun, -, -, -, -, hload⟩, -⟩ := hfit hfits
  obtain ⟨-, -, -, hmisaligned, -⟩ := checked_access m 3 8 (by decide) b
  obtain ⟨-, -, hshort, -⟩ := checked_access m 3 7 (by decide) b
  have hcells : (((b.store 4 9).run m).2.cells.map Single.bits) =
      [0, 0, 0, 0, 1, 2, 0x7fc00003, 4, 5, 0x80000000, 7, 8, 0] := by decide +kernel
  rw [hrun] at hcells
  exact ⟨by decide, hfits, ⟨m', hrun, hcells, hload⟩, (hmisaligned (by decide) (by decide)).1,
    (hshort (by decide)).1⟩

end Batch

end Wavefront
