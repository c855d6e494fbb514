/-
Module: Smelly.Proofs.WideCells
Purpose: When a reflow keeps wide characters whole: exactly when no wide cell of the source comes
  to stand in the last column.
Trusted boundary: none
-/
import Smelly.Lib.ReflowPairs
import Smelly.Proofs.LineBufReflow
import Smelly.Proofs.RewrapSimulation
import Smelly.Proofs.ScrollbackReflow

namespace Smelly

open Checked Reflow RingBuffer

/-- The left half of a wide character. -/
def isWideCell (cell : Cell) : Bool := cell.gpu.attrs.width == 2

/-- The right half of a wide character. -/
def isHalfCell (cell : Cell) : Bool := cell.gpu.attrs.width == 0

/-- Every width-2 cell of the row is followed by its width-0 right half. -/
def WideKept (row : Row) : Prop :=
  ∀ i cell, row[i]? = some cell → cell.gpu.attrs.width = 2 →
    ∃ right, row[i + 1]? = some right ∧ right.gpu.attrs.width = 0

/-- Wrapped into rows of this many columns, a wide cell of these rows comes to stand in the last
column. -/
def TearsWide (columns : Nat) (rows : List (List Cell × Bool)) : Prop :=
  Tears isWideCell isBlankCell columns 0 rows

/-- The marks of wrapped rows do not matter. -/
theorem wideKept_iff (row : Row) : WideKept row ↔ Whole isWideCell isHalfCell (cellsText row) := by
  have width (cell : Cell) (wrapped : Bool) :
      (cell.setWrapped wrapped).gpu.attrs.width = cell.gpu.attrs.width := rfl
  have text (i : Nat) : (cellsText row)[i]? = (row[i]?).map (·.setWrapped false) :=
    List.getElem?_map
  constructor
  · intro kept i a here isWide
    rw [text] at here
    obtain ⟨cell, hcell, rfl⟩ := Option.map_eq_some_iff.1 here
    obtain ⟨right, next, isHalf⟩ := kept i cell hcell (by simpa [isWideCell, width] using isWide)
    refine ⟨right.setWrapped false, by rw [text, next]; rfl, ?_⟩
    simpa [isHalfCell, width] using isHalf
  · intro whole i cell here isWide
    obtain ⟨b, next, isHalf⟩ := whole i (cell.setWrapped false) (by rw [text, here]; rfl)
      (by simpa [isWideCell, width] using isWide)
    rw [text] at next
    obtain ⟨right, hright, rfl⟩ := Option.map_eq_some_iff.1 next
    exact ⟨right, hright, by simpa [isHalfCell, width] using isHalf⟩

theorem whole_blankRow (xnum : Nat) : Whole isWideCell isHalfCell (blankRow xnum) := by
  intro i a here isWide
  rw [List.eq_of_mem_replicate (List.mem_of_getElem? here)] at isWide
  cases isWide

theorem wideKept_blankRow (xnum : Nat) : WideKept (blankRow xnum) := by
  rw [wideKept_iff, cellsText_blankRow]
  exact whole_blankRow xnum

/-- What the writer makes of rows that keep their wide characters. -/
theorem writer_allWhole {columns : Nat} (hcolumns : 0 < columns) {rows : List Row}
    (kept : ∀ row ∈ rows, WideKept row) (apart : ¬ TearsWide columns (rows.map rowText)) :
    (writeRows columns isBlankCell (rows.map rowText) {}).AllWhole isWideCell isHalfCell := by
  apply writeRows_whole hcolumns isBlankCell _ (Writer.Fits.empty columns) (Nat.ModEq.refl 0) _
    apart
  · intro row hrow
    obtain ⟨r, hr, rfl⟩ := List.mem_map.1 hrow
    exact (wideKept_iff r).1 (kept r hr)
  · intro row hrow
    rw [List.mem_singleton.1 hrow]
    exact whole_nil

theorem writer_torn {columns : Nat} (hcolumns : 0 < columns) {rows : List Row}
    (tears : TearsWide columns (rows.map rowText)) :
    ∃ row ∈ (writeRows columns isBlankCell (rows.map rowText) {}).rows,
      TornRow isWideCell columns row.1 :=
  writeRows_torn hcolumns isBlankCell (Writer.Fits.empty columns) (Nat.ModEq.refl 0) tears

/-! ### Line buffers -/

section

variable {self : LineBuf} {lines columns : Nat} {history : HistoryBuf}

/-- The rows the loop of `linebuf_rewrap` leaves in a new buffer. -/
theorem linebufRewrap_holds (wf : self.WellFormed) (hlines : 0 < lines) (hcolumns : 0 < columns)
    (historyWf : history.WellFormed) (historyX : history.xnum = columns)
    (resized : ¬ (columns = self.xnum ∧ lines = self.ynum)) (track : List TrackCursor) {k : Nat}
    (hk : contentLines self self.ynum = some k) (hpos : 0 < k) :
    ∃ out d pushed before current,
      linebufRewrap self (allocLinebuf lines columns) (some history) track = some out ∧
      out.other.rows = d.dest.rows ∧
      LinesHold columns lines history d
        (writeRows columns isBlankCell ((self.rows.take k).map rowText) {}) pushed before
        current := by
  obtain ⟨k', contentEq, le, -, last⟩ := contentLines_spec wf self.ynum (Nat.le_refl _)
  obtain rfl : k' = k := Option.some.inj (contentEq.symm.trans hk)
  have takeLength : (self.rows.take k').length = k' := by
    rw [List.length_take, wf.rowsLength]
    exact Nat.min_eq_left le
  have hx : 0 < self.xnum := by
    obtain ⟨text, textEq, content⟩ := last hpos
    obtain ⟨row, hrow, rfl⟩ := List.mem_map.1 (List.mem_of_getElem? textEq)
    rw [← wf.rowsRowLength hrow]
    rcases row with _ | ⟨cell, row⟩
    · cases content
    · exact Nat.succ_pos _
  have reads : ReadsLines self.xnum self.ynum (self.rows.take k') self 0 :=
    ⟨wf, rfl, rfl, fun y' _ hlt => by rw [List.getElem?_take_of_lt (takeLength ▸ hlt)]⟩
  obtain ⟨st, innerEq, pushed, before, current, holds⟩ := rewrapInner_spec
    (linebuf_srcLaws wf hx k') (linebuf_destLaws hlines hcolumns historyWf historyX)
    (takeLength.symm ▸ hpos) reads track
  rw [takeLength] at innerEq
  have fits : st.dest.destY + 1 ≤ st.dest.dest.ynum := by
    rw [holds.ynumEq]
    exact holds.destY
  obtain ⟨dest, markEq, -, -, markRows⟩ := markLineDirty_loop holds.wellFormed _ fits
  refine ⟨{ self := st.src
            other := dest
            historybuf := st.dest.historybuf
            numContentLinesBefore := k'
            numContentLinesAfter := st.dest.destY + 1
            track := st.track }, st.dest, pushed, before, current, ?_, markRows, holds⟩
  refine (if_neg resized).trans ((congrArg (· >>= _) contentEq).trans ?_)
  exact (if_neg (Nat.ne_of_gt hpos)).trans
    ((congrArg (· >>= _) innerEq).trans (congrArg (· >>= _) markEq))

/-- The rows of the new buffer are rows of the writer with blanks behind them, or blank. -/
theorem LinesHold.row_cases {d : LineBufDest} {s : Writer Cell} {pushed before : List Row}
    {current row : Row} (holds : LinesHold columns lines history d s pushed before current)
    (hrow : row ∈ d.dest.rows) :
    row = blankRow columns ∨ ∃ text ∈ s.rows, ∃ n, cellsText row = text.1 ++ blankRow n := by
  rw [← List.take_append_drop (d.destY + 1) d.dest.rows, List.mem_append, holds.below] at hrow
  rcases hrow with used | below
  · right
    have written : row ∈ before ++ [current] := by
      rw [← holds.lines]
      exact List.mem_append_right _ used
    rcases List.mem_append.1 written with old | new
    · have here := List.mem_map_of_mem (f := cellsText) old
      rw [holds.padded] at here
      obtain ⟨text, htext, textEq⟩ := List.mem_map.1 here
      exact ⟨text, List.mem_append_left _ htext, _, textEq.symm⟩
    · rw [List.mem_singleton.1 new]
      exact ⟨_, List.mem_append_right _ (List.mem_singleton_self _), _, holds.currentCells⟩
  · exact .inl (List.eq_of_mem_replicate below)

/-- Where there is a line for every row of the writer, each of them is in the new buffer. -/
theorem LinesHold.exists_row {d : LineBufDest} {s : Writer Cell} {pushed before : List Row}
    {current : Row} (holds : LinesHold columns lines history d s pushed before current)
    (room : s.rows.length < lines) {text : List Cell × Bool} (htext : text ∈ s.rows) :
    ∃ row ∈ d.dest.rows, ∃ n, cellsText row = text.1 ++ blankRow n := by
  have sameLength : before.length = s.finished.length := by
    have lengths := congrArg List.length holds.padded
    rwa [List.length_map, List.length_map] at lengths
  have unpushed : pushed = [] := by
    by_contra some_
    have last := holds.scrolled some_
    have lengths := congrArg List.length holds.lines
    have destY := holds.destY
    simp only [List.length_append, List.length_take, holds.rowsLength, List.length_singleton]
      at lengths
    rw [Writer.rows, List.length_append, List.length_singleton] at room
    omega
  have kept : ∀ row ∈ before ++ [current], row ∈ d.dest.rows := by
    intro row hrow
    rw [← holds.lines, unpushed, List.nil_append] at hrow
    exact List.mem_of_mem_take hrow
  rcases List.mem_append.1 htext with old | new
  · have here := List.mem_map_of_mem
      (f := fun row : List Cell × Bool => row.1 ++ blankRow (columns - row.1.length)) old
    rw [← holds.padded] at here
    obtain ⟨row, hrow, rowEq⟩ := List.mem_map.1 here
    exact ⟨row, kept row (List.mem_append_left _ hrow), _, rowEq⟩
  · rw [List.mem_singleton.1 new]
    exact ⟨current, kept current (List.mem_append_right _ (List.mem_singleton_self _)), _,
      holds.currentCells⟩

/-- The rows of a line buffer up to the last one with content. -/
def LineBuf.contentText (self : LineBuf) : List (List Cell × Bool) :=
  contentRows isBlankCell self.textRows

theorem contentText_eq (wf : self.WellFormed) {k : Nat}
    (hk : contentLines self self.ynum = some k) :
    self.contentText = (self.rows.take k).map rowText := by
  obtain ⟨k', contentEq, le, rows, -⟩ := contentLines_spec wf self.ynum (Nat.le_refl _)
  obtain rfl : k' = k := Option.some.inj (contentEq.symm.trans hk)
  have all : self.textRows.take self.ynum = self.textRows := by
    apply List.take_of_length_le
    rw [LineBuf.textRows, List.length_map, wf.rowsLength]
  rw [all] at rows
  rw [LineBuf.contentText, rows, LineBuf.textRows, List.map_take]

/-- `linebuf_rewrap` succeeds, and keeps wide characters whole where none is torn apart. -/
theorem linebufRewrap_whole (wf : self.WellFormed) (kept : ∀ row ∈ self.rows, WideKept row)
    (hlines : 0 < lines) (hcolumns : 0 < columns) (historyWf : history.WellFormed)
    (historyX : history.xnum = columns) (track : List TrackCursor)
    (apart : ¬ TearsWide columns self.contentText) :
    ∃ out, linebufRewrap self (allocLinebuf lines columns) (some history) track = some out ∧
      ∀ row ∈ out.other.rows, WideKept row := by
  by_cases same : columns = self.xnum ∧ lines = self.ynum
  · obtain ⟨rfl, rfl⟩ := same
    exact ⟨_, if_pos ⟨rfl, rfl⟩, kept⟩
  · obtain ⟨k, contentEq, -⟩ := contentLines_spec wf self.ynum (Nat.le_refl _)
    rcases Nat.eq_zero_or_pos k with rfl | hpos
    · refine ⟨_, (if_neg same).trans ((congrArg (· >>= _) contentEq).trans rfl), ?_⟩
      intro row hrow
      rw [allocLinebuf_rows] at hrow
      rw [List.eq_of_mem_replicate hrow]
      exact wideKept_blankRow columns
    · obtain ⟨out, d, pushed, before, current, runEq, rows, holds⟩ := linebufRewrap_holds wf hlines
        hcolumns historyWf historyX same track contentEq hpos
      rw [contentText_eq wf contentEq] at apart
      have whole := writer_allWhole hcolumns
        (fun row hrow => kept row (List.mem_of_mem_take hrow)) apart
      refine ⟨out, runEq, fun row hrow => ?_⟩
      rw [rows] at hrow
      rcases holds.row_cases hrow with rfl | ⟨text, htext, n, textEq⟩
      · exact wideKept_blankRow columns
      · rw [wideKept_iff, textEq]
        exact (whole text htext).append (whole_blankRow n)

/-- A wide character that is torn apart is seen in a buffer with a line for every row. -/
theorem linebufRewrap_torn (wf : self.WellFormed) (hcolumns : 0 < columns)
    (historyWf : history.WellFormed) (historyX : history.xnum = columns)
    (track : List TrackCursor) (tears : TearsWide columns self.contentText) :
    ∃ lines out, 0 < lines ∧
      linebufRewrap self (allocLinebuf lines columns) (some history) track = some out ∧
      ∃ row ∈ out.other.rows, ¬ WideKept row := by
  obtain ⟨k, contentEq, -⟩ := contentLines_spec wf self.ynum (Nat.le_refl _)
  rw [contentText_eq wf contentEq] at tears
  have hpos : 0 < k := by
    rcases Nat.eq_zero_or_pos k with rfl | hpos
    · exact tears.elim
    · exact hpos
  obtain ⟨text, htext, torn⟩ := writer_torn hcolumns tears
  obtain ⟨lines, hlines⟩ : ∃ lines, lines = self.ynum + 1 + (writeRows columns isBlankCell
    ((self.rows.take k).map rowText) {}).rows.length := ⟨_, rfl⟩
  obtain ⟨out, d, pushed, before, current, runEq, rows, holds⟩ := linebufRewrap_holds wf
    (show 0 < lines by omega) hcolumns historyWf historyX (by omega) track contentEq hpos
  obtain ⟨row, hrow, n, textEq⟩ := holds.exists_row (by omega) htext
  refine ⟨lines, out, by omega, runEq, row, rows ▸ hrow, fun keptRow => ?_⟩
  have length : row.length = columns := by
    rw [← holds.xnumEq]
    exact holds.wellFormed.rowsRowLength hrow
  have none_ : n = 0 := by
    have lengths := congrArg List.length textEq
    rw [cellsText_length, List.length_append, torn.1, length, blankRow, List.length_replicate]
      at lengths
    omega
  rw [wideKept_iff, textEq, none_, show blankRow 0 = [] from rfl, List.append_nil] at keptRow
  exact torn.not_whole keptRow

/-- A reflow into every new buffer of this many columns, with or without a history, keeps wide
characters whole exactly when none is torn apart. -/
theorem linebufRewrap_keepsWide (wf : self.WellFormed) (kept : ∀ row ∈ self.rows, WideKept row)
    (hcolumns : 0 < columns) (historybuf : Option HistoryBuf)
    (fits : ∀ h ∈ historybuf, h.WellFormed ∧ h.xnum = columns) (track : List TrackCursor) :
    (∀ lines, 0 < lines → ∃ out,
        linebufRewrap self (allocLinebuf lines columns) historybuf track = some out ∧
          ∀ row ∈ out.other.rows, WideKept row) ↔
      ¬ TearsWide columns self.contentText := by
  cases historybuf with
  | some history =>
    obtain ⟨historyWf, historyX⟩ := fits history rfl
    constructor
    · intro all tears
      obtain ⟨lines, out, hlines, runEq, row, hrow, torn⟩ :=
        linebufRewrap_torn wf hcolumns historyWf historyX track tears
      obtain ⟨out', runEq', whole⟩ := all lines hlines
      obtain rfl := Option.some.inj (runEq.symm.trans runEq')
      exact torn (whole row hrow)
    · intro apart lines hlines
      exact linebufRewrap_whole wf kept hlines hcolumns historyWf historyX track apart
  | none =>
    -- the rows are those of a reflow that pushes lines to some history
    have historyWf := blankHistorybuf_wellFormed Nat.one_pos hcolumns
    constructor
    · intro all tears
      obtain ⟨lines, out, hlines, runEq, row, hrow, torn⟩ :=
        linebufRewrap_torn wf hcolumns historyWf rfl track tears
      obtain ⟨out', runEq', whole⟩ := all lines hlines
      obtain rfl := Option.some.inj ((linebufRewrap_noHistory runEq).symm.trans runEq')
      exact torn (whole row hrow)
    · intro apart lines hlines
      obtain ⟨out, runEq, whole⟩ :=
        linebufRewrap_whole wf kept hlines hcolumns historyWf rfl track apart
      exact ⟨_, linebufRewrap_noHistory runEq, whole⟩

end

/-! ### History buffers -/

/-- Rows laid over each other are whole when all that is laid is. -/
theorem layOver_whole (capacity : Nat) {fresh : List Cell}
    (freshWhole : Whole isWideCell isHalfCell fresh) {written : List (List Cell)}
    (whole : ∀ cells ∈ written, Whole isWideCell isHalfCell cells) :
    ∀ row ∈ layOver capacity fresh written, Whole isWideCell isHalfCell row := by
  induction written using List.reverseRecOn with
  | nil => simp [layOver]
  | append_singleton written cells ih =>
    have before := ih fun c hc => whole c (List.mem_append_left _ hc)
    have baseWhole : Whole isWideCell isHalfCell
        (base capacity fresh (layOver capacity fresh written)) := by
      unfold base
      split
      · exact freshWhole
      · cases slot : (layOver capacity fresh written)[
            (layOver capacity fresh written).length - capacity]? with
        | none => exact freshWhole
        | some row => exact before row (List.mem_of_getElem? slot)
    intro row hrow
    rw [layOver_concat] at hrow
    rcases List.mem_append.1 hrow with old | new
    · exact before row old
    · rw [List.mem_singleton.1 new]
      exact (whole cells (List.mem_append_right _ (List.mem_singleton_self _))).append
        (baseWhole.drop _)

section

variable {self : HistoryBuf} {lines columns : Nat}

theorem historybufRewrap_whole (wf : self.WellFormed) (kept : ∀ row ∈ self.rows, WideKept row)
    (hlines : 0 < lines) (hcolumns : 0 < columns)
    (apart : ¬ TearsWide columns self.textRows) :
    ∃ out, historybufRewrap self (blankHistorybuf lines columns) = some out ∧
      ∀ row ∈ out.rows, WideKept row := by
  by_cases same : columns = self.xnum ∧ lines = self.ynum
  · obtain ⟨rfl, rfl⟩ := same
    exact ⟨self, if_pos ⟨rfl, rfl⟩, kept⟩
  · rcases Nat.eq_zero_or_pos self.count with empty | hcount
    · refine ⟨blankHistorybuf lines columns, (if_neg same).trans (if_neg (by omega)), ?_⟩
      simp [HistoryBuf.rows, blankHistorybuf]
    · obtain ⟨out, before, current, runEq, -, -, rows, cells, -⟩ :=
        historybufRewrap_rows wf hlines hcolumns same hcount
      refine ⟨out, runEq, fun row hrow => ?_⟩
      rw [rows] at hrow
      have laid := List.mem_map_of_mem (f := cellsText) (List.mem_of_mem_drop hrow)
      rw [cells] at laid
      rw [wideKept_iff]
      have whole := writer_allWhole hcolumns kept apart
      apply layOver_whole lines (whole_blankRow columns) _ _ laid
      intro text htext
      obtain ⟨r, hr, rfl⟩ := List.mem_map.1 htext
      exact whole r hr

theorem historybufRewrap_torn (wf : self.WellFormed) (hcolumns : 0 < columns)
    (tears : TearsWide columns self.textRows) :
    ∃ lines out, 0 < lines ∧
      historybufRewrap self (blankHistorybuf lines columns) = some out ∧
      ∃ row ∈ out.rows, ¬ WideKept row := by
  have hcount : 0 < self.count := by
    rw [← wf.rowsLength]
    apply List.length_pos_of_ne_nil
    intro empty
    rw [HistoryBuf.textRows, empty] at tears
    exact tears
  obtain ⟨text, htext, torn⟩ := writer_torn hcolumns tears
  have fits : (writeRows columns isBlankCell self.textRows {}).Fits columns :=
    (Writer.Fits.empty columns).writeRows hcolumns self.textRows
  obtain ⟨lines, linesEq⟩ : ∃ lines, lines = self.ynum + 1 + (writeRows columns isBlankCell
    (self.rows.map rowText) {}).rows.length := ⟨_, rfl⟩
  obtain ⟨out, before, current, runEq, -, -, rows, cells, -⟩ :=
    historybufRewrap_rows wf (show 0 < lines by omega) hcolumns (by omega) hcount
  have total : before.length + 1 ≤ lines := by
    have lengths := congrArg List.length cells
    rw [List.length_map, List.length_append, List.length_singleton, layOver_length,
      List.length_map] at lengths
    rw [lengths, linesEq]
    exact Nat.le_add_left _ _
  have short : ∀ row ∈ (writeRows columns isBlankCell self.textRows {}).rows.map Prod.fst,
      row.length ≤ columns := by
    intro row hmem
    obtain ⟨whole, hwhole, rfl⟩ := List.mem_map.1 hmem
    rcases List.mem_append.1 hwhole with old | new
    · exact (fits.finished whole old).1
    · rw [List.mem_singleton.1 new]
      exact fits.current
  obtain ⟨k, hk⟩ := List.getElem?_of_mem (List.mem_map_of_mem (f := Prod.fst) htext)
  have laid := layOver_row lines (blankRow columns) hk
  have laidLength := layOver_full lines (by simp [blankRow]) short _ (List.mem_of_getElem? laid)
  rw [List.length_append, torn.1] at laidLength
  rw [torn.1, List.eq_nil_of_length_eq_zero (Nat.add_eq_left.1 laidLength), List.append_nil] at laid
  have laid' := (congrArg (fun rows => rows[k]?) cells).trans laid
  rw [List.getElem?_map] at laid'
  obtain ⟨row, hrow, rowEq⟩ := Option.map_eq_some_iff.1 laid'
  refine ⟨lines, out, by omega, runEq, row, ?_, fun keptRow => ?_⟩
  · rw [rows, Nat.sub_eq_zero_of_le total, List.drop_zero]
    exact List.mem_of_getElem? hrow
  · rw [wideKept_iff, rowEq] at keptRow
    exact torn.not_whole keptRow

/-- A reflow into every fresh ring of this many columns keeps wide characters whole exactly when
none is torn apart. -/
theorem historybufRewrap_keepsWide (wf : self.WellFormed)
    (kept : ∀ row ∈ self.rows, WideKept row) (hcolumns : 0 < columns) :
    (∀ lines, 0 < lines → ∃ out,
        historybufRewrap self (blankHistorybuf lines columns) = some out ∧
          ∀ row ∈ out.rows, WideKept row) ↔
      ¬ TearsWide columns self.textRows := by
  constructor
  · intro all tears
    obtain ⟨lines, out, hlines, runEq, row, hrow, torn⟩ := historybufRewrap_torn wf hcolumns tears
    obtain ⟨out', runEq', whole⟩ := all lines hlines
    obtain rfl := Option.some.inj (runEq.symm.trans runEq')
    exact torn (whole row hrow)
  · intro apart lines hlines
    exact historybufRewrap_whole wf kept hlines hcolumns apart

end

/-- A reflow to any number of columns from two on, into every new line buffer or ring, keeps the
wide characters of the source whole exactly when none of them comes to stand in the last column. -/
theorem rewrap_keepsWide {columns : Nat} (hcolumns : 2 ≤ columns) :
    (∀ self : LineBuf, self.WellFormed → (∀ row ∈ self.rows, WideKept row) →
      ∀ historybuf : Option HistoryBuf, (∀ h ∈ historybuf, h.WellFormed ∧ h.xnum = columns) →
      ∀ track : List TrackCursor,
        ((∀ lines, 0 < lines → ∃ out,
            linebufRewrap self (allocLinebuf lines columns) historybuf track = some out ∧
              ∀ row ∈ out.other.rows, WideKept row) ↔
          ¬ TearsWide columns self.contentText)) ∧
    (∀ self : HistoryBuf, self.WellFormed → (∀ row ∈ self.rows, WideKept row) →
        ((∀ lines, 0 < lines → ∃ out,
            historybufRewrap self (blankHistorybuf lines columns) = some out ∧
              ∀ row ∈ out.rows, WideKept row) ↔
          ¬ TearsWide columns self.textRows)) := by
  have positive : 0 < columns := by omega
  constructor
  · intro self wf kept historybuf fits track
    exact linebufRewrap_keepsWide wf kept positive historybuf fits track
  · intro self wf kept
    exact historybufRewrap_keepsWide wf kept positive

/-- A letter and a wide character. -/
def letterAndWide : Row :=
  [textCell 97, { cpu := { ch := 20013 }, gpu := { attrs := { width := 2 } } }, {}]

theorem letterAndWide_kept : WideKept letterAndWide := by
  intro i cell here isWide
  match i with
  | 0 => cases here; cases isWide
  | 1 => exact ⟨{}, rfl, rfl⟩
  | 2 => cases here; cases isWide
  | i + 3 => cases here

/-- A screen of one line with a letter and a wide character. -/
def wideScreen : LineBuf :=
  { xnum := 3, ynum := 1, cells := [letterAndWide], lineMap := [0], scratch := [0],
    lineAttrs := [{}] }

theorem wideScreen_wellFormed : wideScreen.WellFormed where
  cellsLength := rfl
  rowLength := by decide
  mapPerm := by decide
  attrsLength := rfl
  scratchLength := rfl

theorem wideScreen_kept : ∀ row ∈ wideScreen.rows, WideKept row := by
  intro row hrow
  rw [List.mem_singleton.1 (show row ∈ [letterAndWide] from hrow)]
  exact letterAndWide_kept

/-- A ring of one line with a letter and a wide character. -/
def wideRing : HistoryBuf :=
  { xnum := 3, ynum := 1, cells := [letterAndWide], lineAttrs := [{}], count := 1 }

theorem wideRing_wellFormed : wideRing.WellFormed where
  xnumPositive := by decide
  ynumPositive := by decide
  cellsLength := rfl
  rowLength := by decide
  attrsLength := rfl
  startLt := by decide
  countLe := by decide

theorem wideRing_kept : ∀ row ∈ wideRing.rows, WideKept row := by
  intro row hrow
  rw [List.mem_singleton.1 (show row ∈ [letterAndWide] from hrow)]
  exact letterAndWide_kept

/-- Four columns have room for both. -/
theorem rewrap_keepsWide_four :
    ((∀ lines, 0 < lines → ∃ out,
        linebufRewrap wideScreen (allocLinebuf lines 4) (some (blankHistorybuf 1 4)) [] =
            some out ∧
          ∀ row ∈ out.other.rows, WideKept row) ↔
      ¬ TearsWide 4 wideScreen.contentText) ∧
    ((∀ lines, 0 < lines → ∃ out,
        historybufRewrap wideRing (blankHistorybuf lines 4) = some out ∧
          ∀ row ∈ out.rows, WideKept row) ↔
      ¬ TearsWide 4 wideRing.textRows) := by
  have both := rewrap_keepsWide (show 2 ≤ 4 by decide)
  constructor
  · apply both.1 wideScreen wideScreen_wellFormed wideScreen_kept
    intro h present
    obtain rfl := Option.some.inj present
    exact ⟨blankHistorybuf_wellFormed (by decide) (by decide), rfl⟩
  · exact both.2 wideRing wideRing_wellFormed wideRing_kept

/-- In two columns the letter and the left half fill the first row, and the right half stands alone
in the second. -/
theorem rewrap_tearsWide :
    (∀ row ∈ wideScreen.rows, WideKept row) ∧
    ∃ out, linebufRewrap wideScreen (allocLinebuf 2 2) (some (blankHistorybuf 1 2)) [] =
        some out ∧ ¬ ∀ row ∈ out.other.rows, WideKept row := by
  refine ⟨wideScreen_kept, _, rfl, fun whole => ?_⟩
  have first := whole _ (List.mem_cons_self)
  obtain ⟨right, next, -⟩ := first 1 _ rfl rfl
  cases next

end Smelly
