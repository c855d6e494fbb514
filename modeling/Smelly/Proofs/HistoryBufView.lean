/-
Module: Smelly.Proofs.HistoryBufView
Purpose: The well-formedness invariant of the scrollback ring, its slots read from the oldest on,
  and one specification lemma for each operation of `history.c` in terms of them.
Trusted boundary: none
-/
import Smelly.Core.HistoryBuf
import Smelly.Lib.RingBuffer

namespace Smelly

open Checked RingBuffer

/-- The arrays of a scrollback ring have the sizes they were allocated with, and the lines in it
fit. -/
structure HistoryBuf.WellFormed (hb : HistoryBuf) : Prop where
  xnumPositive : 0 < hb.xnum
  ynumPositive : 0 < hb.ynum
  cellsLength : hb.cells.length = hb.ynum
  rowLength : ∀ row ∈ hb.cells, row.length = hb.xnum
  attrsLength : hb.lineAttrs.length = hb.ynum
  startLt : hb.startOfData < hb.ynum
  countLe : hb.count ≤ hb.ynum

/-- All slots, from the one with the oldest line on. -/
def HistoryBuf.ring (self : HistoryBuf) : List Row := self.cells.rotate self.startOfData

/-- The rows in the ring, oldest first. -/
def HistoryBuf.rows (self : HistoryBuf) : List Row := self.ring.take self.count

/-- The same buffer but for its cells and attributes. -/
structure HistoryBuf.SameShape (hb hb' : HistoryBuf) : Prop where
  xnum : hb'.xnum = hb.xnum
  ynum : hb'.ynum = hb.ynum
  start : hb'.startOfData = hb.startOfData
  count : hb'.count = hb.count

theorem HistoryBuf.SameShape.trans {hb hb' hb'' : HistoryBuf} (h : hb.SameShape hb')
    (h' : hb'.SameShape hb'') : hb.SameShape hb'' :=
  ⟨h'.xnum.trans h.xnum, h'.ynum.trans h.ynum, h'.start.trans h.start, h'.count.trans h.count⟩

theorem blankHistorybuf_wellFormed {lines columns : Nat} (hlines : 0 < lines)
    (hcolumns : 0 < columns) : (blankHistorybuf lines columns).WellFormed where
  xnumPositive := hcolumns
  ynumPositive := hlines
  cellsLength := by simp [blankHistorybuf]
  rowLength := by
    intro row hrow
    rw [List.eq_of_mem_replicate hrow]
    simp [blankRow, blankHistorybuf]
  attrsLength := by simp [blankHistorybuf]
  startLt := hlines
  countLe := Nat.zero_le _

theorem blankHistorybuf_ring (lines columns : Nat) :
    (blankHistorybuf lines columns).ring = slotsOf lines (blankRow columns) [] := by
  simp [HistoryBuf.ring, blankHistorybuf]

theorem indexOf_lt {self : HistoryBuf} (wf : self.WellFormed) (lnum : Nat) :
    indexOf self lnum < self.ynum := by
  unfold indexOf
  split
  · exact wf.ynumPositive
  · exact Nat.mod_lt _ wf.ynumPositive

namespace HistoryBuf.WellFormed

variable {self : HistoryBuf}

theorem ringLength (wf : self.WellFormed) : self.ring.length = self.ynum := by
  rw [HistoryBuf.ring, List.length_rotate, wf.cellsLength]

theorem rowsLength (wf : self.WellFormed) : self.rows.length = self.count := by
  rw [HistoryBuf.rows, List.length_take, wf.ringLength]
  exact Nat.min_eq_left wf.countLe

theorem ringRowLength (wf : self.WellFormed) {row : Row} (h : row ∈ self.ring) :
    row.length = self.xnum :=
  wf.rowLength row (List.mem_rotate.1 h)

theorem rowsRowLength (wf : self.WellFormed) {row : Row} (h : row ∈ self.rows) :
    row.length = self.xnum :=
  wf.ringRowLength (List.mem_of_mem_take h)

/-- The slot `p` places after the oldest line. -/
theorem slot_eq (wf : self.WellFormed) {p : Nat} (h : p < self.ynum) :
    self.cells[(self.startOfData + p) % self.ynum]? = self.ring[p]? := by
  rw [HistoryBuf.ring, getElem?_rotate_lt _ _ (by rw [wf.cellsLength]; exact h), wf.cellsLength]

theorem slot_lt (wf : self.WellFormed) (p : Nat) :
    (self.startOfData + p) % self.ynum < self.ynum := Nat.mod_lt _ wf.ynumPositive

/-- Replacing the row in a slot by one of the same width. -/
theorem setCells (wf : self.WellFormed) (slot : Nat) {row : Row} (h : row.length = self.xnum) :
    HistoryBuf.WellFormed { self with cells := self.cells.set slot row } where
  xnumPositive := wf.xnumPositive
  ynumPositive := wf.ynumPositive
  cellsLength := by simpa using wf.cellsLength
  rowLength := by
    intro r hr
    rcases List.mem_or_eq_of_mem_set hr with old | new
    · exact wf.rowLength r old
    · rw [new]
      exact h
  attrsLength := wf.attrsLength
  startLt := wf.startLt
  countLe := wf.countLe

theorem setLineAttrs (wf : self.WellFormed) {attrs : List LineAttrs}
    (h : attrs.length = self.lineAttrs.length) :
    HistoryBuf.WellFormed { self with lineAttrs := attrs } where
  xnumPositive := wf.xnumPositive
  ynumPositive := wf.ynumPositive
  cellsLength := wf.cellsLength
  rowLength := wf.rowLength
  attrsLength := h.trans wf.attrsLength
  startLt := wf.startLt
  countLe := wf.countLe

end HistoryBuf.WellFormed

variable {self : HistoryBuf}

theorem setAttrs_spec (wf : self.WellFormed) (idx : Nat) (h : idx < self.ynum)
    (attrs : LineAttrs) :
    ∃ hb, self.setAttrs idx attrs = some hb ∧ hb.WellFormed ∧ self.SameShape hb ∧
      hb.ring = self.ring := by
  have inside : idx < self.lineAttrs.length := by
    rw [wf.attrsLength]
    exact h
  refine ⟨{ self with lineAttrs := self.lineAttrs.set idx attrs }, ?_,
    wf.setLineAttrs (by simp), ⟨rfl, rfl, rfl, rfl⟩, rfl⟩
  simp [HistoryBuf.setAttrs, setAt_of_lt inside]

/-- A row operation on the slot `p` places after the oldest line. -/
theorem onSlot_spec (wf : self.WellFormed) {p : Nat} {row row' : Row}
    (hrow : self.ring[p]? = some row) (operation : Row → Option Row)
    (runs : operation row = some row') (hlength : row'.length = row.length) :
    ∃ hb, self.onSlot ((self.startOfData + p) % self.ynum) operation = some hb ∧ hb.WellFormed ∧
      self.SameShape hb ∧ hb.ring = self.ring.set p row' := by
  have hp : p < self.ynum := by
    rw [← wf.ringLength]
    exact (List.getElem?_eq_some_iff.1 hrow).1
  have inside : (self.startOfData + p) % self.ynum < self.cells.length := by
    rw [wf.cellsLength]
    exact wf.slot_lt p
  refine ⟨{ self with cells := self.cells.set ((self.startOfData + p) % self.ynum) row' }, ?_,
    wf.setCells _ (hlength.trans (wf.ringRowLength (List.mem_of_getElem? hrow))),
    ⟨rfl, rfl, rfl, rfl⟩, ?_⟩
  · simp [HistoryBuf.onSlot, wf.slot_eq hp, hrow, runs, setAt_of_lt inside]
  · have rotated := rotate_set self.cells self.startOfData p row' (by rw [wf.cellsLength]; exact hp)
    rwa [wf.cellsLength] at rotated

theorem lastCellWrapped_isSome (wf : self.WellFormed) (num : Nat) (h : num < self.ynum) :
    ∃ wrapped, self.lastCellWrapped num = some wrapped := by
  have inside : num < self.cells.length := by
    rw [wf.cellsLength]
    exact h
  have length : self.cells[num].length = self.xnum := wf.rowLength _ (List.getElem_mem inside)
  have positive := wf.xnumPositive
  have last : self.xnum - 1 < self.cells[num].length := by omega
  exact ⟨_, by simp [HistoryBuf.lastCellWrapped, List.getElem?_eq_getElem inside,
    List.getElem?_eq_getElem last]; rfl⟩

/-- Every slot can be read. -/
theorem historybufInitSlot_spec (wf : self.WellFormed) {p : Nat} {row : Row}
    (hrow : self.ring[p]? = some row) :
    ∃ attrs, historybufInitSlot self ((self.startOfData + p) % self.ynum) =
      some { cells := row, attrs := attrs } := by
  have hp : p < self.ynum := by
    rw [← wf.ringLength]
    exact (List.getElem?_eq_some_iff.1 hrow).1
  have slot := wf.slot_lt p
  obtain ⟨attrs, attrsEq⟩ : ∃ attrs,
      self.lineAttrs[(self.startOfData + p) % self.ynum]? = some attrs :=
    ⟨_, List.getElem?_eq_getElem (by rw [wf.attrsLength]; exact slot)⟩
  obtain ⟨wrapped, wrappedEq⟩ := lastCellWrapped_isSome wf
    ((self.startOfData + p) % self.ynum - 1) (by omega)
  unfold historybufInitSlot
  simp only [wf.slot_eq hp, hrow, attrsEq, wrappedEq, Option.bind_eq_bind, Option.bind_some]
  split <;> exact ⟨_, rfl⟩

/-! ### Adding and removing lines -/

/-- The slot of a new line is the newest one afterwards. -/
theorem historybufPush_spec (wf : self.WellFormed) :
    ∃ hb idx, historybufPush self = (hb, idx) ∧ hb.WellFormed ∧ hb.xnum = self.xnum ∧
      hb.ynum = self.ynum ∧ hb.count = min (self.count + 1) self.ynum ∧
      idx = (hb.startOfData + (hb.count - 1)) % hb.ynum ∧
      hb.ring = (if self.count = self.ynum then self.ring.rotate 1 else self.ring) := by
  have positive := wf.ynumPositive
  have start := wf.startLt
  have fits := wf.countLe
  unfold historybufPush
  split
  · rename_i full
    refine ⟨_, _, rfl, ⟨wf.xnumPositive, positive, wf.cellsLength, wf.rowLength, wf.attrsLength,
      Nat.mod_lt _ positive, fits⟩, rfl, rfl, by simp only; omega, ?_, ?_⟩
    · simp only [full, Nat.mod_add_mod]
      rw [show self.startOfData + 1 + (self.ynum - 1) = self.startOfData + self.ynum by omega]
    · rw [HistoryBuf.ring, HistoryBuf.ring, List.rotate_rotate, ← wf.cellsLength, List.rotate_mod]
  · refine ⟨_, _, rfl, ⟨wf.xnumPositive, positive, wf.cellsLength, wf.rowLength, wf.attrsLength,
      start, by simp only; omega⟩, rfl, rfl, by simp only; omega, rfl, rfl⟩

/-- After a push the newest slot holds what it held before, behind the lines that are still in
the ring. -/
theorem push_rows (wf : self.WellFormed) {row : Row} :
    ((if self.count = self.ynum then self.ring.rotate 1 else self.ring).set
        (min (self.count + 1) self.ynum - 1) row).take (min (self.count + 1) self.ynum) =
      (self.rows ++ [row]).drop (self.count + 1 - self.ynum) := by
  have length := wf.ringLength
  have positive := wf.ynumPositive
  have fits := wf.countLe
  unfold HistoryBuf.rows
  split
  · rename_i full
    obtain ⟨oldest, rest, ringEq⟩ : ∃ oldest rest, self.ring = oldest :: rest :=
      List.exists_cons_of_length_pos (by omega)
    rw [ringEq] at length ⊢
    rw [List.length_cons] at length
    have newest : min (self.count + 1) self.ynum - 1 = rest.length := by omega
    rw [newest, List.rotate_cons_succ, List.rotate_zero, List.set_append_right _ _ (Nat.le_refl _),
      Nat.sub_self, List.set_cons_zero, List.take_of_length_le (by simp; omega),
      List.take_of_length_le (by simp; omega), show self.count + 1 - self.ynum = 1 by omega]
    rfl
  · rename_i room
    have newest : min (self.count + 1) self.ynum = self.count + 1 := by omega
    rw [newest, Nat.add_sub_cancel, show self.count + 1 - self.ynum = 0 by omega, List.drop_zero,
      List.take_succ_eq_append_getElem (by simp; omega), List.take_set_of_le (Nat.le_refl _),
      List.getElem_set_self]

/-- `historybuf_add_line` appends the line, and drops the oldest one when the ring is full. -/
theorem historybufAddLine_rows (wf : self.WellFormed) {line : Line}
    (hline : line.cells.length = self.xnum) :
    ∃ hb, historybufAddLine self line = some hb ∧ hb.WellFormed ∧ hb.xnum = self.xnum ∧
      hb.ynum = self.ynum ∧ hb.count = min (self.count + 1) self.ynum ∧
      hb.rows = (self.rows ++ [line.cells]).drop (self.count + 1 - self.ynum) := by
  obtain ⟨pushed, idx, pushEq, pushedWf, pushedX, pushedY, pushedCount, idxEq, pushedRing⟩ :=
    historybufPush_spec wf
  have positive := wf.ynumPositive
  obtain ⟨old, hold⟩ : ∃ old, pushed.ring[pushed.count - 1]? = some old :=
    ⟨_, List.getElem?_eq_getElem (by rw [pushedWf.ringLength]; omega)⟩
  have oldLength : old.length = self.xnum :=
    (pushedWf.ringRowLength (List.mem_of_getElem? hold)).trans pushedX
  have copied : copyLine line.cells old = line.cells := by
    rw [copyLine, oldLength, ← hline, List.take_length, List.drop_of_length_le (by omega),
      List.append_nil]
  obtain ⟨stored, storeEq, storedWf, storedShape, storedRing⟩ := onSlot_spec pushedWf hold
    (fun row => some (copyLine line.cells row)) (congrArg some copied) (by omega)
  obtain ⟨final, attrsEq, finalWf, finalShape, finalRing⟩ := setAttrs_spec storedWf idx
    (by rw [idxEq, storedShape.ynum]; exact pushedWf.slot_lt _) line.attrs
  have shape := storedShape.trans finalShape
  refine ⟨final, ?_, finalWf, shape.xnum.trans pushedX, shape.ynum.trans pushedY,
    shape.count.trans pushedCount, ?_⟩
  · rw [historybufAddLine, pushEq]
    simp only [idxEq, storeEq, Option.bind_eq_bind, Option.bind_some]
    rw [← idxEq]
    exact attrsEq
  · rw [← push_rows wf, HistoryBuf.rows, shape.count, finalRing, storedRing, pushedRing,
      pushedCount]

end Smelly
