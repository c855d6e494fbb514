/-
Module: Smelly.Proofs.LineBufReflow
Purpose: `linebuf_rewrap` keeps the logical lines: those of the lines pushed to the history and
  the rows of the new buffer are those of the old one.
Trusted boundary: none
-/
import Smelly.Proofs.HistoryBufView
import Smelly.Proofs.LineBufRows
import Smelly.Proofs.RewrapWriter

namespace Smelly

open Checked Reflow

/-- The rows of a line buffer as text, top row first. -/
def LineBuf.textRows (self : LineBuf) : List (List Cell × Bool) := self.rows.map rowText

/-! ### The source -/

/-- The rows of the source from row `y` on are those it had at the start. -/
structure ReadsLines (xnum ynum : Nat) (rows : List Row) (src : LineBuf) (y : Nat) : Prop where
  wellFormed : src.WellFormed
  xnumEq : src.xnum = xnum
  ynumEq : src.ynum = ynum
  later : ∀ y', y ≤ y' → y' < rows.length → src.rows[y']? = rows[y']?

theorem linebuf_srcLaws {self : LineBuf} (wf : self.WellFormed) (hx : 0 < self.xnum) (n : Nat) :
    SrcLaws linebufMacros self.xnum (self.rows.take n)
      (ReadsLines self.xnum self.ynum (self.rows.take n)) where
  positive := hx
  lengths := fun _ hrow => wf.rowsRowLength (List.mem_of_mem_take hrow)
  xnumEq := fun reads => reads.xnumEq
  next := fun reads =>
    ⟨reads.wellFormed, reads.xnumEq, reads.ynumEq, fun y' hy => reads.later y' (by omega)⟩
  init := by
    intro src y row reads hrow
    have inside : y < (self.rows.take n).length := (List.getElem?_eq_some_iff.1 hrow).1
    have here := (reads.later y (Nat.le_refl y) inside).trans hrow
    refine linebufInitLine_spec reads.wellFormed (reads.xnumEq ▸ hx) ?_ here
    rw [← reads.wellFormed.rowsLength]
    exact (List.getElem?_eq_some_iff.1 here).1
  clear := by
    intro src y row reads hrow
    have inside : y < (self.rows.take n).length := (List.getElem?_eq_some_iff.1 hrow).1
    have here := (reads.later y (Nat.le_refl y) inside).trans hrow
    have wf' := reads.wellFormed
    have hy : y < src.ynum := by
      rw [← wf'.rowsLength]
      exact (List.getElem?_eq_some_iff.1 here).1
    obtain ⟨row', markEq, length, -, -⟩ := markRow_spec
      (wf'.rowsRowLength (List.mem_of_getElem? here)) (reads.xnumEq ▸ hx) false
    obtain ⟨src', clearEq, srcWf, size, rows, -⟩ := onRow_spec wf' hy here
      (fun row => modifyAt row (src.xnum - 1) (·.setWrapped false)) markEq length
    refine ⟨src', clearEq, srcWf, size.xnum.trans reads.xnumEq, size.ynum.trans reads.ynumEq, ?_⟩
    intro y' hle hlt
    rw [rows, List.getElem?_set_ne (by omega)]
    exact reads.later y' (by omega) hlt

/-! ### The destination -/

/-- The history got the lines `pushed`, and has dropped the oldest lines that no longer fit. -/
structure HistoryGot (history history' : HistoryBuf) (pushed : List Row) : Prop where
  wellFormed : history'.WellFormed
  xnumEq : history'.xnum = history.xnum
  ynumEq : history'.ynum = history.ynum
  count : history'.count = min (history.count + pushed.length) history.ynum
  rows : history'.rows =
    (history.rows ++ pushed).drop (history.count + pushed.length - history.ynum)

theorem HistoryGot.refl {history : HistoryBuf} (wf : history.WellFormed) :
    HistoryGot history history [] := by
  have fits := wf.countLe
  refine ⟨wf, rfl, rfl, by simp [fits], ?_⟩
  rw [List.append_nil, show history.count + ([] : List Row).length - history.ynum = 0 by
    simp; omega, List.drop_zero]

/-- Adding one more line. -/
theorem HistoryGot.add {history history' : HistoryBuf} {pushed : List Row}
    (wf : history.WellFormed) (got : HistoryGot history history' pushed) {line : Line}
    (hline : line.cells.length = history.xnum) :
    ∃ next, historybufAddLine history' line = some next ∧
      HistoryGot history next (pushed ++ [line.cells]) := by
  obtain ⟨next, addEq, nextWf, nextX, nextY, nextCount, nextRows⟩ :=
    historybufAddLine_rows got.wellFormed (hline.trans got.xnumEq.symm)
  have length := wf.rowsLength
  have fits := wf.countLe
  have count := got.count
  refine ⟨next, addEq, nextWf, nextX.trans got.xnumEq, nextY.trans got.ynumEq, ?_, ?_⟩
  · rw [nextCount, count, got.ynumEq, List.length_append, List.length_singleton]
    omega
  · have split : (history.rows ++ pushed ++ [line.cells]).drop
        (history.count + pushed.length - history.ynum) =
          (history.rows ++ pushed).drop (history.count + pushed.length - history.ynum) ++
            [line.cells] :=
      List.drop_append_of_le_length (by rw [List.length_append, length]; omega)
    rw [nextRows, got.rows, count, got.ynumEq, List.length_append, List.length_singleton,
      ← List.append_assoc, ← split, List.drop_drop]
    congr 1
    omega

/-- The lines pushed to the history and the lines of the destination are the rows of the writer:
the finished ones in `before`, and the current one in the last line in use.  The lines below are
blank. -/
structure LinesHold (xnum ynum : Nat) (history : HistoryBuf) (d : LineBufDest)
    (s : Writer Cell) (pushed before : List Row) (current : Row) : Prop where
  wellFormed : d.dest.WellFormed
  xnumEq : d.dest.xnum = xnum
  ynumEq : d.dest.ynum = ynum
  destY : d.destY < ynum
  scrolled : pushed ≠ [] → d.destY = ynum - 1
  lines : pushed ++ d.dest.rows.take (d.destY + 1) = before ++ [current]
  below : d.dest.rows.drop (d.destY + 1) =
    List.replicate (ynum - (d.destY + 1)) (blankRow xnum)
  history : ∃ history', d.historybuf = some history' ∧ HistoryGot history history' pushed
  cells : List.Forall₂ (Pads isBlankCell) (before.map rowText) s.finished
  currentCells : cellsText current =
    s.current ++ blankRow (xnum - s.current.length)
  padded : before.map cellsText =
    s.finished.map fun row => row.1 ++ blankRow (xnum - row.1.length)

namespace LinesHold

variable {xnum ynum : Nat} {history : HistoryBuf} {d : LineBufDest} {s : Writer Cell}
  {pushed before : List Row} {current : Row}

theorem rowsLength (holds : LinesHold xnum ynum history d s pushed before current) :
    d.dest.rows.length = ynum :=
  holds.wellFormed.rowsLength.trans holds.ynumEq

/-- The current row is in the line `dest_y`. -/
theorem currentLine (holds : LinesHold xnum ynum history d s pushed before current) :
    d.dest.rows[d.destY]? = some current ∧ pushed ++ d.dest.rows.take d.destY = before := by
  have hlt : d.destY < d.dest.rows.length := by
    rw [holds.rowsLength]
    exact holds.destY
  have lines := holds.lines
  rw [List.take_succ_eq_append_getElem hlt, ← List.append_assoc] at lines
  obtain ⟨beforeEq, currentEq⟩ := List.append_inj' lines rfl
  rw [List.getElem?_eq_getElem hlt]
  exact ⟨congrArg some (List.singleton_inj.1 currentEq), beforeEq⟩

/-- Changing the current row. -/
theorem setCurrent (holds : LinesHold xnum ynum history d s pushed before current)
    {dest : LineBuf} (wf : dest.WellFormed) (size : d.dest.SameSize dest) {row : Row}
    (rows : dest.rows = d.dest.rows.set d.destY row) {s' : Writer Cell}
    (finished : s'.finished = s.finished)
    (text : cellsText row = s'.current ++ blankRow (xnum - s'.current.length)) :
    LinesHold xnum ynum history { d with dest := dest } s' pushed before row where
  wellFormed := wf
  xnumEq := size.xnum.trans holds.xnumEq
  ynumEq := size.ynum.trans holds.ynumEq
  destY := holds.destY
  scrolled := holds.scrolled
  lines := by
    have hlt : d.destY < (d.dest.rows.set d.destY row).length := by
      rw [List.length_set, holds.rowsLength]
      exact holds.destY
    rw [← holds.currentLine.2, rows, List.take_succ_eq_append_getElem hlt, List.getElem_set_self,
      List.take_set_of_le (Nat.le_refl _), List.append_assoc]
  below := by
    rw [rows, List.drop_set_of_lt (Nat.lt_succ_self _)]
    exact holds.below
  history := holds.history
  cells := finished ▸ holds.cells
  currentCells := text
  padded := finished ▸ holds.padded

end LinesHold

theorem setDestLineAttrs_spec {d : LineBufDest} (wf : d.dest.WellFormed)
    (h : d.destY < d.dest.ynum) (attrs : LineAttrs) :
    ∃ dest, d.setLineAttrs attrs =
        some ({ d with dest := dest }, { attrs with promptKind := .unknownPromptKind }) ∧
      dest.WellFormed ∧ d.dest.SameSize dest ∧ dest.rows = d.dest.rows := by
  have inside : d.destY < d.dest.lineAttrs.length := by
    rw [wf.attrsLength]
    exact h
  have length : (d.dest.lineAttrs.set d.destY attrs).length = d.dest.lineAttrs.length :=
    List.length_set
  exact ⟨{ d.dest with lineAttrs := d.dest.lineAttrs.set d.destY attrs },
    by simp [LineBufDest.setLineAttrs, setAt_of_lt inside], wf.setAttrs _ length, ⟨rfl, rfl⟩,
    setLineAttrs_rows length⟩

/-- Scrolling the destination: its top row goes to the history, and the last line is blank. -/
theorem scrollDest_spec {xnum ynum : Nat} {history : HistoryBuf} {d : LineBufDest}
    {s : Writer Cell} {pushed before : List Row} {current : Row}
    (hx : 0 < xnum) (historyWf : history.WellFormed) (historyX : history.xnum = xnum)
    (holds : LinesHold xnum ynum history d s pushed before current)
    (last : d.dest.ynum - 1 ≤ d.destY) :
    ∃ moved top, d.advance = some moved ∧ moved.dest.WellFormed ∧ moved.dest.xnum = xnum ∧
      moved.dest.ynum = ynum ∧ moved.destY = d.destY ∧
      pushed ++ [top] ++ moved.dest.rows = before ++ [current, blankRow xnum] ∧
      (∃ history', moved.historybuf = some history' ∧
        HistoryGot history history' (pushed ++ [top])) := by
  have hy : 0 < d.dest.ynum := by
    have := holds.destY
    rw [holds.ynumEq]
    omega
  have atLast : d.destY + 1 = d.dest.ynum := by
    have := holds.destY
    have := holds.ynumEq
    omega
  obtain ⟨top, rest, rowsEq⟩ : ∃ top rest, d.dest.rows = top :: rest :=
    List.exists_cons_of_length_pos (by rw [holds.wellFormed.rowsLength]; exact hy)
  have restLength : rest.length = d.dest.ynum - 1 := by
    have := holds.wellFormed.rowsLength
    rw [rowsEq, List.length_cons] at this
    omega
  obtain ⟨rotated, indexEq, rotatedWf, rotatedSize, rotatedRows⟩ :=
    linebufIndex_rows holds.wellFormed hy
  rw [rowsEq, List.rotate_cons_succ, List.rotate_zero] at rotatedRows
  have bottom : rotated.rows[rotated.ynum - 1]? = some top := by
    rw [rotatedRows, rotatedSize.ynum, ← restLength, List.getElem?_concat_length]
  have rotatedX : rotated.xnum = xnum := rotatedSize.xnum.trans holds.xnumEq
  have rotatedY : 0 < rotated.ynum := by
    rw [rotatedSize.ynum]
    exact hy
  obtain ⟨attrs, initEq⟩ := linebufInitLine_spec rotatedWf (by rw [rotatedX]; exact hx)
    (Nat.sub_lt rotatedY Nat.one_pos) bottom
  obtain ⟨history', historyEq, got⟩ := holds.history
  have topLength : ({ cells := top, attrs := { attrs with hasDirtyText := true } } :
      Line).cells.length = history.xnum := by
    rw [rotatedWf.rowsRowLength (List.mem_of_getElem? bottom), rotatedX, historyX]
  obtain ⟨next, addEq, nextGot⟩ := got.add historyWf topLength
  obtain ⟨cleared, clearEq, clearedWf, clearedSize, clearedRows⟩ := linebufClearLine_rows rotatedWf
    (Nat.sub_lt rotatedY Nat.one_pos) true
  refine ⟨{ dest := cleared, destY := d.destY, historybuf := some next }, top, ?_, clearedWf,
    clearedSize.xnum.trans rotatedX, clearedSize.ynum.trans (rotatedSize.ynum.trans holds.ynumEq),
    rfl, ?_, next, rfl, nextGot⟩
  · unfold LineBufDest.advance LineBufDest.addToHistory
    rw [if_pos last, indexEq]
    simp only [Option.bind_eq_bind, Option.bind_some, historyEq, initEq, addEq, clearEq]
  · have lines := holds.lines
    rw [rowsEq, List.take_of_length_le (by rw [List.length_cons]; omega)] at lines
    rw [clearedRows, rotatedRows, rotatedSize.ynum, ← restLength, rotatedX,
      List.set_append_right _ _ (Nat.le_refl _), Nat.sub_self]
    change pushed ++ [top] ++ (rest ++ [blankRow xnum]) = before ++ ([current] ++ [blankRow xnum])
    rw [← List.append_assoc before, ← lines]
    simp

/-- Moving on to a new line, which is blank. -/
theorem advance_spec {xnum ynum : Nat} {history : HistoryBuf} {d : LineBufDest} {s : Writer Cell}
    {pushed before : List Row} {current : Row} (hx : 0 < xnum) (historyWf : history.WellFormed)
    (historyX : history.xnum = xnum)
    (holds : LinesHold xnum ynum history d s pushed before current) :
    ∃ moved pushed', d.advance = some moved ∧ moved.dest.WellFormed ∧ moved.dest.xnum = xnum ∧
      moved.dest.ynum = ynum ∧ moved.destY < ynum ∧ (pushed' ≠ [] → moved.destY = ynum - 1) ∧
      pushed' ++ moved.dest.rows.take (moved.destY + 1) = before ++ [current, blankRow xnum] ∧
      moved.dest.rows.drop (moved.destY + 1) =
        List.replicate (ynum - (moved.destY + 1)) (blankRow xnum) ∧
      ∃ history', moved.historybuf = some history' ∧ HistoryGot history history' pushed' := by
  have destY := holds.destY
  have ynumEq := holds.ynumEq
  by_cases last : d.dest.ynum - 1 ≤ d.destY
  · obtain ⟨moved, top, advanceEq, movedWf, movedX, movedY, movedDestY, lines, historyGot⟩ :=
      scrollDest_spec hx historyWf historyX holds last
    have length : moved.dest.rows.length = ynum := movedWf.rowsLength.trans movedY
    refine ⟨moved, pushed ++ [top], advanceEq, movedWf, movedX, movedY, by omega,
      fun _ => by omega, ?_, ?_, historyGot⟩
    · rw [List.take_of_length_le (by omega)]
      exact lines
    · rw [List.drop_of_length_le (by omega), show ynum - (moved.destY + 1) = 0 by omega]
      rfl
  · refine ⟨{ d with destY := d.destY + 1 }, pushed, if_neg last, holds.wellFormed, holds.xnumEq,
      ynumEq, by simp only; omega, fun some => ?_, ?_, ?_, holds.history⟩
    · have := holds.scrolled some
      omega
    · have below := congrArg (fun rows => rows[0]?) holds.below
      simp only [List.getElem?_drop, List.getElem?_replicate] at below
      rw [if_pos (by omega), Nat.add_zero] at below
      have hlt : d.destY + 1 < d.dest.rows.length := (List.getElem?_eq_some_iff.1 below).1
      have nextRow := (List.getElem?_eq_some_iff.1 below).2
      rw [List.take_succ_eq_append_getElem hlt, nextRow, ← List.append_assoc, holds.lines,
        List.append_assoc]
      rfl
    · have below := congrArg (List.drop 1) holds.below
      rw [List.drop_drop, List.drop_replicate] at below
      exact below

theorem linebuf_destLaws {lines columns : Nat} (hlines : 0 < lines) (hcolumns : 0 < columns)
    {history : HistoryBuf} (historyWf : history.WellFormed) (historyX : history.xnum = columns) :
    DestLaws linebufMacros columns
      { dest := allocLinebuf lines columns, historybuf := some history }
      (fun d s => ∃ pushed before current,
        LinesHold columns lines history d s pushed before current) where
  positive := hcolumns
  xnumEq := by
    rintro dest s ⟨pushed, before, current, holds⟩
    exact holds.xnumEq
  first := by
    intro attrs
    obtain ⟨dest, attrsEq, wf, size, rows⟩ := setDestLineAttrs_spec
      (d := { dest := allocLinebuf lines columns, historybuf := some history })
      (allocLinebuf_wellFormed lines columns) hlines attrs
    rw [allocLinebuf_rows] at rows
    refine ⟨{ dest := dest, historybuf := some history },
      { attrs with promptKind := .unknownPromptKind }, attrsEq, [], [], blankRow columns, wf,
      size.xnum, size.ynum, hlines, by simp, ?_, ?_, ⟨history, rfl, .refl historyWf⟩, .nil, ?_, rfl⟩
    · obtain ⟨more, rfl⟩ : ∃ more, lines = more + 1 := ⟨lines - 1, by omega⟩
      simp [rows, List.replicate_succ]
    · simp [rows]
    · simp [cellsText_blankRow]
  next := by
    rintro dest s continued attrs ⟨pushed, before, current, holds⟩ fits full
    obtain ⟨marked, markEq, markedLength, markedText, markedFlag⟩ := markRow_spec
      (holds.wellFormed.rowsRowLength (List.mem_of_getElem? holds.currentLine.1))
      (holds.xnumEq ▸ hcolumns) continued
    obtain ⟨set, setEq, setWf, setSize, setRows, -⟩ := onRow_spec holds.wellFormed
      (holds.ynumEq ▸ holds.destY) holds.currentLine.1
      (fun row => modifyAt row (dest.dest.xnum - 1) (·.setWrapped continued)) markEq markedLength
    have holds' := holds.setCurrent setWf setSize setRows rfl (markedText.trans holds.currentCells)
    obtain ⟨moved, pushed', advanceEq, movedWf, movedX, movedY, movedDestY, scrolled, rows, below,
      history'⟩ := advance_spec hcolumns historyWf historyX holds'
    obtain ⟨final, attrsEq, finalWf, finalSize, finalRows⟩ :=
      setDestLineAttrs_spec movedWf (movedY ▸ movedDestY) attrs
    refine ⟨{ moved with dest := final }, { attrs with promptKind := .unknownPromptKind }, ?_,
      pushed', before ++ [marked], blankRow columns, finalWf, finalSize.xnum.trans movedX,
      finalSize.ynum.trans movedY, movedDestY, scrolled, ?_, ?_, history', ?_, ?_, ?_⟩
    · have set' : linebufSetLastCharAsContinuation dest.dest dest.destY continued = some set :=
        (if_pos (holds.ynumEq ▸ holds.destY)).trans setEq
      change LineBufDest.nextLine dest continued attrs = _
      rw [LineBufDest.nextLine, set']
      simp only [Option.bind_eq_bind, Option.bind_some, advanceEq, attrsEq]
    · rw [finalRows, rows, List.append_assoc]
      rfl
    · rw [finalRows, below]
    · rw [List.map_append]
      refine List.rel_append holds.cells (.cons ?_ .nil)
      refine ⟨blankRow (columns - s.current.length), markedText.trans holds.currentCells, ?_,
        markedFlag, fun wraps => ?_⟩
      · intro cell hcell
        rw [List.eq_of_mem_replicate hcell]
        rfl
      · rw [full (markedFlag.symm.trans wraps), Nat.sub_self]
        rfl
    · simp [Writer.breakRow, cellsText_blankRow]
    · rw [List.map_append, holds.padded, Writer.breakRow, List.map_append, List.map_singleton,
        List.map_singleton, markedText, holds.currentCells]
  copy := by
    rintro dest s cells srcAt num ⟨pushed, before, current, holds⟩ hsrc hdest
    obtain ⟨row', copyEq, length, text⟩ := copyRange_spec holds.currentCells hsrc (by
      rw [holds.wellFormed.rowsRowLength (List.mem_of_getElem? holds.currentLine.1), holds.xnumEq]
      exact hdest)
    obtain ⟨lb, setEq, lbWf, size, rows, -⟩ := onRow_spec holds.wellFormed
      (holds.ynumEq ▸ holds.destY) holds.currentLine.1
      (fun row => copyRange cells srcAt row s.current.length num) copyEq length
    have size' : (((cellsText cells).drop srcAt).take num).length = num := by
      simp only [List.length_take, List.length_drop, cellsText_length]
      omega
    refine ⟨{ dest with dest := lb }, (congrArg (· >>= _) setEq).trans rfl, pushed, before, row',
      holds.setCurrent lbWf size rows rfl ?_⟩
    rw [text, Writer.extend, List.length_append, size', blankRow, blankRow, List.drop_replicate,
      Nat.sub_sub]

/-! ### The reflowed buffer -/

/-- The search for the last line with content finds the end of the content rows. -/
theorem contentLines_spec {self : LineBuf} (wf : self.WellFormed) (n : Nat) (h : n ≤ self.ynum) :
    ∃ k, contentLines self n = some k ∧ k ≤ n ∧
      contentRows isBlankCell (self.textRows.take n) = self.textRows.take k ∧
      (0 < k → ∃ row, self.textRows[k - 1]? = some row ∧ row.1.all isBlankCell = false) := by
  induction n with
  | zero => exact ⟨0, rfl, Nat.le_refl 0, by simp [contentRows], by simp⟩
  | succ n ih =>
    obtain ⟨row, rowEq, -⟩ := wf.exists_rows_getElem? (y := n) h
    have textEq : self.textRows[n]? = some (rowText row) := by
      rw [LineBuf.textRows, List.getElem?_map, rowEq]
      rfl
    have split : self.textRows.take (n + 1) = self.textRows.take n ++ [rowText row] := by
      rw [List.take_add_one, textEq]
      rfl
    have content : row.any (·.ch ≠ blankChar) = !(rowText row).1.all isBlankCell := by
      rw [Bool.eq_iff_iff]
      simp [rowText, cellsText, isBlankCell, List.all_map, Function.comp_def]
    unfold contentLines
    rw [← wf.rows_getElem? h, rowEq, Option.bind_eq_bind, Option.bind_some, content]
    cases blank : (rowText row).1.all isBlankCell with
    | false =>
      refine ⟨n + 1, by simp, Nat.le_refl _, ?_, fun _ => ⟨rowText row, textEq, blank⟩⟩
      rw [split]
      exact List.rdropWhile_concat_neg _ _ _ (by simp [blank])
    | true =>
      obtain ⟨k, linesEq, le, rows, last⟩ := ih (by omega)
      refine ⟨k, by simpa using linesEq, by omega, ?_, last⟩
      rw [split, ← rows]
      exact List.rdropWhile_concat_pos _ _ _ blank

theorem markLineDirty_loop {self : LineBuf} (wf : self.WellFormed) (n : Nat) (h : n ≤ self.ynum) :
    ∃ lb, forUp 0 n (fun i lb => linebufMarkLineDirty lb i) self = some lb ∧
      lb.WellFormed ∧ self.SameSize lb ∧ lb.rows = self.rows := by
  have round : ∀ i (lb : LineBuf), 0 ≤ i → i < 0 + n →
      (lb.WellFormed ∧ self.SameSize lb ∧ lb.rows = self.rows) →
      ∃ lb', linebufMarkLineDirty lb i = some lb' ∧
        lb'.WellFormed ∧ self.SameSize lb' ∧ lb'.rows = self.rows := by
    rintro i lb - hi ⟨lbWf, size, rows⟩
    have inside : i < lb.lineAttrs.length := by
      rw [lbWf.attrsLength, size.ynum]
      omega
    obtain ⟨marked, markEq, length⟩ : ∃ marked, modifyAt lb.lineAttrs i
        (fun attrs => { attrs with hasDirtyText := true }) = some marked ∧
          marked.length = lb.lineAttrs.length :=
      ⟨_, modifyAt_of_lt inside _, List.length_set⟩
    refine ⟨{ lb with lineAttrs := marked }, ?_, lbWf.setAttrs marked length,
      size.trans ⟨rfl, rfl⟩, (setLineAttrs_rows length).trans rows⟩
    rw [linebufMarkLineDirty, markEq]
    rfl
  exact forUp_invariant (fun _ lb => lb.WellFormed ∧ self.SameSize lb ∧ lb.rows = self.rows)
    ⟨wf, ⟨rfl, rfl⟩, rfl⟩ round

/-- The reflow loop of `linebuf_rewrap` keeps the logical lines. -/
theorem rewrapInner_logicalLines {self : LineBuf} (wf : self.WellFormed) {lines columns k : Nat}
    (hlines : 0 < lines) (hcolumns : 0 < columns) {history : HistoryBuf}
    (historyWf : history.WellFormed) (historyX : history.xnum = columns)
    (rows : contentRows isBlankCell self.textRows = self.textRows.take k) (hk : k ≤ self.ynum)
    (hpos : 0 < k) {last : List Cell × Bool} (lastEq : self.textRows[k - 1]? = some last)
    (content : last.1.all isBlankCell = false) (track : List TrackCursor) :
    ∃ st pushed history', linebufMacros.rewrapInner self
        { dest := allocLinebuf lines columns, historybuf := some history } k track = some st ∧
      st.dest.dest.WellFormed ∧ st.dest.destY + 1 ≤ st.dest.dest.ynum ∧
      st.dest.historybuf = some history' ∧ HistoryGot history history' pushed ∧
      logicalLines isBlankCell
          ((pushed ++ st.dest.dest.rows.take (st.dest.destY + 1)).map rowText) =
        logicalLines isBlankCell self.textRows := by
  have takeLength : (self.rows.take k).length = k := by
    rw [List.length_take, wf.rowsLength]
    omega
  have hx : 0 < self.xnum := by
    obtain ⟨row, hrow, rfl⟩ := List.mem_map.1 (List.mem_of_getElem? lastEq)
    rw [← wf.rowsRowLength hrow]
    rcases row with _ | ⟨cell, row⟩
    · simp [rowText, cellsText] at content
    · exact Nat.succ_pos _
  obtain ⟨st, innerEq, pushed, before, current, holds⟩ := rewrapInner_spec
    (linebuf_srcLaws wf hx k) (linebuf_destLaws hlines hcolumns historyWf historyX)
    (by rw [takeLength]; exact hpos)
    (⟨wf, rfl, rfl, fun y' _ hlt => by
      rw [List.getElem?_take_of_lt (by omega)]⟩ : ReadsLines self.xnum self.ynum _ self 0) track
  rw [takeLength] at innerEq
  obtain ⟨history', historyEq, got⟩ := holds.history
  have destY := holds.destY
  refine ⟨st, pushed, history', innerEq, holds.wellFormed, by rw [holds.ynumEq]; exact destY,
    historyEq, got, ?_⟩
  -- the rows up to the last one with content, and that row
  obtain ⟨m, rfl⟩ : ∃ m, k = m + 1 := ⟨k - 1, by omega⟩
  have texts : (self.rows.take (m + 1)).map rowText = self.textRows.take m ++ [last] := by
    rw [List.map_take]
    change self.textRows.take (m + 1) = _
    rw [List.take_add_one, show self.textRows[m]? = some last from lastEq]
    rfl
  have source : logicalLines isBlankCell self.textRows =
      logicalLines isBlankCell (self.textRows.take m ++ [last]) := by
    have kept : contentRows isBlankCell (self.textRows.take m ++ [last]) =
        self.textRows.take m ++ [last] :=
      List.rdropWhile_concat_neg _ _ _ (by simp [content])
    rw [logicalLines, logicalLines, kept, rows, ← texts, List.map_take]
    rfl
  rw [source, holds.lines, List.map_append]
  rw [texts] at holds
  have written := writeRows_pads columns isBlankCell
    (show self.textRows.take m ++ [last] ≠ [] by simp)
  refine logicalLines_of_pads columns isBlankCell content (rowWrapped current) ?_ written
  refine List.rel_append holds.cells (.cons ?_ .nil)
  refine ⟨blankRow (columns - _), holds.currentCells, ?_, rfl, by simp⟩
  intro cell hcell
  rw [List.eq_of_mem_replicate hcell]
  rfl

/-- `linebuf_rewrap` into a new buffer of any size succeeds.  The lines it pushes go to the
history, and the logical lines read from them and from the content rows of the new buffer are
those of the old one. -/
theorem linebufRewrap_logicalLines {self : LineBuf} (wf : self.WellFormed) {lines columns : Nat}
    (hlines : 0 < lines) (hcolumns : 0 < columns) {history : HistoryBuf}
    (historyWf : history.WellFormed) (historyX : history.xnum = columns)
    (track : List TrackCursor) :
    ∃ out pushed history', linebufRewrap self (allocLinebuf lines columns) (some history) track =
        some out ∧
      out.historybuf = some history' ∧
      history'.rows = (history.rows ++ pushed).drop
        (history.rows.length + pushed.length - history.ynum) ∧
      logicalLines isBlankCell
          ((pushed ++ out.other.rows.take out.numContentLinesAfter).map rowText) =
        logicalLines isBlankCell self.textRows := by
  have unpushed : history.rows =
      (history.rows ++ []).drop (history.rows.length + ([] : List Row).length - history.ynum) := by
    rw [historyWf.rowsLength]
    exact (HistoryGot.refl historyWf).rows
  by_cases same : columns = self.xnum ∧ lines = self.ynum
  · refine ⟨_, [], history, if_pos same, rfl, unpushed, ?_⟩
    rw [List.nil_append, List.take_of_length_le (by rw [← wf.rowsLength]; exact Nat.le_refl _)]
    rfl
  · obtain ⟨k, linesEq, hk, rows, last⟩ := contentLines_spec wf self.ynum (Nat.le_refl _)
    have textLength : self.textRows.length = self.ynum :=
      (List.length_map _).trans wf.rowsLength
    rw [List.take_of_length_le textLength.le] at rows
    have run : linebufRewrap self (allocLinebuf lines columns) (some history) track = _ :=
      (if_neg same).trans (congrArg (· >>= _) linesEq)
    rcases Nat.eq_zero_or_pos k with rfl | hpos
    · refine ⟨_, [], history, run.trans rfl, rfl, unpushed, ?_⟩
      rw [logicalLines, logicalLines, rows]
      rfl
    · obtain ⟨row, rowEq, content⟩ := last hpos
      obtain ⟨st, pushed, history', innerEq, destWf, fits, historyEq, got, linesSame⟩ :=
        rewrapInner_logicalLines wf hlines hcolumns historyWf historyX rows hk hpos rowEq content
          track
      obtain ⟨dest, markEq, markWf, size, markRows⟩ := markLineDirty_loop destWf _ fits
      refine ⟨_, pushed, history', run.trans ((if_neg (by omega)).trans
        ((congrArg (· >>= _) innerEq).trans (congrArg (· >>= _) markEq))), historyEq, ?_, ?_⟩
      · rw [historyWf.rowsLength]
        exact got.rows
      · rw [← linesSame, ← markRows]

/-- A screen of one line of three columns that shows `a b`. -/
def threeColumns : LineBuf :=
  { xnum := 3
    ynum := 1
    cells := [[{ cpu := { ch := 97 } }, {}, { cpu := { ch := 98 } }]]
    lineMap := [0]
    scratch := [0]
    lineAttrs := [{}] }

theorem threeColumns_wellFormed : threeColumns.WellFormed where
  cellsLength := rfl
  rowLength := by decide
  mapPerm := List.Perm.refl _
  attrsLength := rfl
  scratchLength := rfl

/-- Reflowed into one line of two columns, the first row of `a b` goes to the history. -/
theorem linebufRewrap_threeColumns :
    ∃ out pushed history', linebufRewrap threeColumns (allocLinebuf 1 2)
        (some (blankHistorybuf 5 2)) [] = some out ∧
      out.historybuf = some history' ∧
      history'.rows = ((blankHistorybuf 5 2).rows ++ pushed).drop
        ((blankHistorybuf 5 2).rows.length + pushed.length - (blankHistorybuf 5 2).ynum) ∧
      logicalLines isBlankCell
          ((pushed ++ out.other.rows.take out.numContentLinesAfter).map rowText) =
        logicalLines isBlankCell threeColumns.textRows :=
  linebufRewrap_logicalLines threeColumns_wellFormed (by decide) (by decide)
    (blankHistorybuf_wellFormed (by decide) (by decide)) rfl []

end Smelly
