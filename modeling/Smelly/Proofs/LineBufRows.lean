/-
Module: Smelly.Proofs.LineBufRows
Purpose: The rows of a line buffer from top to bottom, without their attributes, and what the
  operations on single rows and on the whole screen do to them.
Trusted boundary: none
-/
import Smelly.Proofs.LineBufView

namespace Smelly

open Checked

/-- The rows seen through `line_map`, top row first. -/
def LineBuf.rows (self : LineBuf) : List Row := self.view.map Prod.fst

/-- The same width and height. -/
structure LineBuf.SameSize (lb lb' : LineBuf) : Prop where
  xnum : lb'.xnum = lb.xnum
  ynum : lb'.ynum = lb.ynum

theorem LineBuf.SameSize.trans {lb lb' lb'' : LineBuf} (h : lb.SameSize lb')
    (h' : lb'.SameSize lb'') : lb.SameSize lb'' :=
  ⟨h'.xnum.trans h.xnum, h'.ynum.trans h.ynum⟩

namespace LineBuf.WellFormed

variable {self : LineBuf}

theorem rowsLength (wf : self.WellFormed) : self.rows.length = self.ynum := by
  rw [LineBuf.rows, List.length_map, wf.viewLength]

/-- The rows of the view are the rows the operations find. -/
theorem rows_getElem? (wf : self.WellFormed) {y : Nat} (h : y < self.ynum) :
    self.rows[y]? = self.row y := by
  obtain ⟨physical, mapEq, physicalLt⟩ := wf.exists_physical h
  obtain ⟨attrs, attrsEq⟩ := wf.exists_attrs h
  have inside : physical < self.cells.length := by
    rw [wf.cellsLength]
    exact physicalLt
  simp [LineBuf.rows, LineBuf.view, viewOf, LineBuf.row, List.getElem?_zipWith, mapEq, attrsEq,
    List.getElem?_eq_getElem inside]

theorem rowsRowLength (wf : self.WellFormed) {row : Row} (h : row ∈ self.rows) :
    row.length = self.xnum := by
  obtain ⟨y, hy⟩ := List.mem_iff_getElem?.1 h
  have inside : y < self.ynum := by
    rw [← wf.rowsLength]
    exact (List.getElem?_eq_some_iff.1 hy).1
  obtain ⟨row', rowEq, length⟩ := wf.exists_row inside
  rw [wf.rows_getElem? inside, rowEq] at hy
  rw [← Option.some.inj hy]
  exact length

theorem exists_rows_getElem? (wf : self.WellFormed) {y : Nat} (h : y < self.ynum) :
    ∃ row, self.rows[y]? = some row ∧ row.length = self.xnum := by
  obtain ⟨row, rowEq, length⟩ := wf.exists_row h
  exact ⟨row, (wf.rows_getElem? h).trans rowEq, length⟩

end LineBuf.WellFormed

variable {self : LineBuf}

theorem allocLinebuf_rows (lines columns : Nat) :
    (allocLinebuf lines columns).rows = List.replicate lines (blankRow columns) := by
  apply List.ext_getElem?
  intro j
  simp only [LineBuf.rows, LineBuf.view, viewOf, allocLinebuf, List.getElem?_map,
    List.getElem?_zipWith, List.getElem?_replicate]
  by_cases h : j < lines
  · simp [h]
  · simp [h]

/-- Attributes are not part of the rows. -/
theorem setLineAttrs_rows {attrs : List LineAttrs}
    (h : attrs.length = self.lineAttrs.length) :
    LineBuf.rows { self with lineAttrs := attrs } = self.rows := by
  apply List.ext_getElem?
  intro j
  simp only [LineBuf.rows, LineBuf.view, viewOf, List.getElem?_map, List.getElem?_zipWith]
  rcases Nat.lt_or_ge j attrs.length with hj | hj
  · have hj' : j < self.lineAttrs.length := by omega
    rw [List.getElem?_eq_getElem hj, List.getElem?_eq_getElem hj']
    cases self.lineMap[j]? <;> rfl
  · have hj' : self.lineAttrs.length ≤ j := by omega
    rw [List.getElem?_eq_none hj, List.getElem?_eq_none hj']

theorem map_fst_modify (lines : List (Row × LineAttrs)) (y : Nat) (row : Row)
    (attrs : Row × LineAttrs → LineAttrs) :
    (lines.modify y fun line => (row, attrs line)).map Prod.fst =
      (lines.map Prod.fst).set y row := by
  apply List.ext_getElem?
  intro j
  simp only [List.getElem?_map, List.getElem?_modify, List.getElem?_set, List.length_map]
  by_cases same : y = j
  · subst same
    rcases Nat.lt_or_ge y lines.length with h | h
    · simp [h]
    · simp [h]
  · simp [same]

/-- A row operation changes that row only. -/
theorem onRow_spec (wf : self.WellFormed) {y : Nat} {row row' : Row} (hy : y < self.ynum)
    (hrow : self.rows[y]? = some row) (operation : Row → Option Row)
    (runs : operation row = some row') (hlength : row'.length = row.length) :
    ∃ lb, self.onRow y operation = some lb ∧ lb.WellFormed ∧ self.SameSize lb ∧
      lb.rows = self.rows.set y row' ∧ lb.lineAttrs = self.lineAttrs := by
  obtain ⟨physical, mapEq, physicalLt⟩ := wf.exists_physical hy
  have inside : physical < self.cells.length := by
    rw [wf.cellsLength]
    exact physicalLt
  have rowEq := (wf.rows_getElem? hy).symm.trans hrow
  have lengthEq : row'.length = self.xnum :=
    hlength.trans (wf.rowsRowLength (List.mem_of_getElem? hrow))
  have sameLengths : self.lineMap.length = self.lineAttrs.length := by
    rw [wf.mapLength, wf.attrsLength]
  refine ⟨{ self with cells := self.cells.set physical row' }, ?_,
    wf.setCells physical row' lengthEq, ⟨rfl, rfl⟩, ?_, rfl⟩
  · simp [LineBuf.onRow, LineBuf.setRow, rowEq, runs, mapEq, setAt_of_lt inside]
  · have changed := zipWith_cells_set wf.mapNodup mapEq inside row' sameLengths
    rw [LineBuf.rows, LineBuf.view, viewOf]
    exact (congrArg (List.map Prod.fst) changed).trans (map_fst_modify _ y row' _)

theorem lastCellWrapped_spec (wf : self.WellFormed) (hx : 0 < self.xnum) {y : Nat}
    (h : y < self.ynum) : ∃ wrapped, self.lastCellWrapped y = some wrapped := by
  obtain ⟨row, rowEq, length⟩ := wf.exists_row h
  have last : self.xnum - 1 < row.length := by omega
  exact ⟨row[self.xnum - 1].gpu.attrs.nextCharWasWrapped,
    by simp [LineBuf.lastCellWrapped, rowEq, List.getElem?_eq_getElem last]⟩

theorem linebufInitLine_spec (wf : self.WellFormed) (hx : 0 < self.xnum) {y : Nat} {row : Row}
    (hy : y < self.ynum) (hrow : self.rows[y]? = some row) :
    ∃ attrs, linebufInitLine self y = some { cells := row, attrs := attrs } := by
  obtain ⟨attrs, attrsEq⟩ := wf.exists_attrs hy
  obtain ⟨wrapped, wrappedEq⟩ := lastCellWrapped_spec wf hx (y := y - 1) (by omega)
  rw [wf.rows_getElem? hy] at hrow
  unfold linebufInitLine
  simp only [attrsEq, wrappedEq, hrow, Option.bind_eq_bind, Option.bind_some]
  split <;> exact ⟨_, rfl⟩

/-- Scrolling a region up brings its top row to its bottom. -/
theorem linebufIndex_region (wf : self.WellFormed) {top bottom : Nat} (h : top ≤ bottom)
    (hb : bottom < self.ynum) :
    ∃ lb, linebufIndex self top bottom = some lb ∧ lb.WellFormed ∧ self.SameSize lb ∧
      lb.rows = Segment.on top (bottom + 1) (·.rotate 1) self.rows := by
  obtain ⟨lb, indexEq, lbWf, hx, hy, view⟩ := linebufIndex_spec wf h hb
  refine ⟨lb, indexEq, lbWf, ⟨hx, hy⟩, ?_⟩
  rw [LineBuf.rows, view]
  exact Segment.map_on Prod.fst _ _ _ _ (fun s => List.map_rotate Prod.fst s 1) self.view

/-- Scrolling a region down brings its bottom row to its top. -/
theorem linebufReverseIndex_region (wf : self.WellFormed) {top bottom : Nat} (h : top ≤ bottom)
    (hb : bottom < self.ynum) :
    ∃ lb, linebufReverseIndex self top bottom = some lb ∧ lb.WellFormed ∧ self.SameSize lb ∧
      lb.rows = Segment.on top (bottom + 1) (fun s => s.rotate (s.length - 1)) self.rows := by
  obtain ⟨lb, indexEq, lbWf, hx, hy, view⟩ := linebufReverseIndex_spec wf h hb
  refine ⟨lb, indexEq, lbWf, ⟨hx, hy⟩, ?_⟩
  rw [LineBuf.rows, view]
  apply Segment.map_on
  intro s
  rw [List.map_rotate, List.length_map]

/-- Scrolling the whole screen brings the top row to the bottom. -/
theorem linebufIndex_rows (wf : self.WellFormed) (hy : 0 < self.ynum) :
    ∃ lb, linebufIndex self 0 (self.ynum - 1) = some lb ∧ lb.WellFormed ∧ self.SameSize lb ∧
      lb.rows = self.rows.rotate 1 := by
  obtain ⟨lb, indexEq, lbWf, size, rows⟩ := linebufIndex_region wf (Nat.zero_le _)
    (show self.ynum - 1 < self.ynum by omega)
  refine ⟨lb, indexEq, lbWf, size, rows.trans (Segment.on_whole _ _ ?_)⟩
  rw [wf.rowsLength]
  omega

theorem linebufClearLine_rows (wf : self.WellFormed) {y : Nat} (hy : y < self.ynum)
    (clearAttrs : Bool) :
    ∃ lb, linebufClearLine self y clearAttrs = some lb ∧ lb.WellFormed ∧ self.SameSize lb ∧
      lb.rows = self.rows.set y (blankRow self.xnum) := by
  obtain ⟨lb, clearEq, lbWf, hx, hy', -, view⟩ := linebufClearLine_spec wf hy clearAttrs
  refine ⟨lb, clearEq, lbWf, ⟨hx, hy'⟩, ?_⟩
  rw [LineBuf.rows, view]
  exact map_fst_modify _ y _ _

end Smelly
