/-
Module: Smelly.Proofs.ScrollConservation
Purpose: Scrolling a main screen without margins moves its rows into the scrollback, and the
  rows the scrollback has no room for into the pager history: none is lost, none changes.
Trusted boundary: none
-/
import Smelly.Core.Screen
import Smelly.Proofs.HistoryBufView
import Smelly.Proofs.LineBufRows

namespace Smelly

open Checked

/-- The scrollback, oldest row first, and below it the screen. -/
def Screen.allRows (self : Screen) : List Row :=
  self.historybuf.ring.rows ++ self.mainLinebuf.rows

/-- A well-formed main screen without margins, with the cursor in the last row. -/
structure Screen.AtMainBottom (s : Screen) : Prop where
  columnsPositive : 0 < s.columns
  linesPositive : 0 < s.lines
  onMain : s.onMain = true
  linebuf : s.mainLinebuf.WellFormed
  linebufX : s.mainLinebuf.xnum = s.columns
  linebufY : s.mainLinebuf.ynum = s.lines
  history : s.historybuf.ring.WellFormed
  historyX : s.historybuf.ring.xnum = s.columns
  marginTop : s.marginTop = 0
  marginBottom : s.marginBottom = s.lines - 1
  cursor : s.cursor.y = s.marginBottom

/-- A line is given to the pager history, if there is one. -/
def handOver (lineAsAnsi : LineAsAnsi) (state : Option PagerHistoryBuf × UInt16) (line : Line) :
    Option PagerHistoryBuf × UInt16 :=
  match state with
  | (none, activeHyperlinkId) => (none, activeHyperlinkId)
  | (some ph, activeHyperlinkId) =>
    let wrapped := line.cells.getLast?.any (·.gpu.attrs.nextCharWasWrapped)
    let (ph, activeHyperlinkId) :=
      pagerhistPush lineAsAnsi line wrapped (ph, activeHyperlinkId)
    (some ph, activeHyperlinkId)

/-- The pager history, with what the next line's text depends on. -/
def PagedHistory.pager (self : PagedHistory) : Option PagerHistoryBuf × UInt16 :=
  (self.pagerhist, self.activeHyperlinkId)

/-- The pager history has received the rows, in this order. -/
def PagedHistory.Received (lineAsAnsi : LineAsAnsi) (before after : PagedHistory)
    (rows : List Row) : Prop :=
  ∃ lines : List Line, lines.map Line.cells = rows ∧
    after.pager = lines.foldl (handOver lineAsAnsi) before.pager

variable {lineAsAnsi : LineAsAnsi}

theorem PagedHistory.Received.trans {first second third : PagedHistory} {rows more : List Row}
    (h : first.Received lineAsAnsi second rows) (h' : second.Received lineAsAnsi third more) :
    first.Received lineAsAnsi third (rows ++ more) := by
  obtain ⟨lines, linesEq, pagerEq⟩ := h
  obtain ⟨lines', linesEq', pagerEq'⟩ := h'
  refine ⟨lines ++ lines', ?_, ?_⟩
  · rw [List.map_append, linesEq, linesEq']
  · rw [pagerEq', pagerEq, List.foldl_append]

/-! ### The scrollback -/

variable (lineAsAnsi)

theorem pagedInitSlot_spec {self : HistoryBuf} (wf : self.WellFormed) (ph : PagerHistoryBuf)
    {oldest : Row} (hrow : self.ring[0]? = some oldest) :
    ∃ attrs, pagedInitSlot self ph self.startOfData =
      some { cells := oldest, attrs := attrs } := by
  obtain ⟨attrs, slotEq⟩ := historybufInitSlot_spec wf hrow
  rw [Nat.add_zero, Nat.mod_eq_of_lt wf.startLt] at slotEq
  unfold pagedInitSlot
  simp only [slotEq, Option.bind_eq_bind, Option.bind_some]
  split <;> exact ⟨_, rfl⟩

/-- What `historybuf_push` hands over is the oldest row. -/
theorem pageOut_spec {self : PagedHistory} (wf : self.ring.WellFormed) {oldest : Row}
    (hrow : self.ring.ring[0]? = some oldest) :
    ∃ paged, self.pageOut lineAsAnsi = some paged ∧ paged.ring = self.ring ∧
      self.Received lineAsAnsi paged [oldest] := by
  cases present : self.pagerhist with
  | none =>
    refine ⟨self, by simp [PagedHistory.pageOut, present], rfl, [{ cells := oldest }], rfl, ?_⟩
    simp [PagedHistory.pager, handOver, present]
  | some ph =>
    obtain ⟨attrs, slotEq⟩ := pagedInitSlot_spec wf ph hrow
    have width : oldest.length = self.ring.xnum :=
      wf.ringRowLength (List.mem_of_getElem? hrow)
    have positive := wf.xnumPositive
    have inside : self.ring.xnum - 1 < oldest.length := by omega
    have last : oldest.getLast? = some oldest[self.ring.xnum - 1] := by
      rw [List.getLast?_eq_getElem?, width, List.getElem?_eq_getElem inside]
    let pushed := pagerhistPush lineAsAnsi { cells := oldest, attrs := attrs }
      oldest[self.ring.xnum - 1].gpu.attrs.nextCharWasWrapped (ph, self.activeHyperlinkId)
    refine ⟨{ self with pagerhist := some pushed.1, activeHyperlinkId := pushed.2 }, ?_, rfl,
      [{ cells := oldest, attrs := attrs }], rfl, ?_⟩
    · simp only [PagedHistory.pageOut, present, slotEq, Option.bind_eq_bind, Option.bind_some,
        List.getElem?_eq_getElem inside]
      rfl
    · simp [PagedHistory.pager, handOver, present, last, pushed]

theorem pagedHistorybufAddLine_spec {self : PagedHistory} (wf : self.ring.WellFormed)
    {line : Line} (hline : line.cells.length = self.ring.xnum) :
    ∃ added, pagedHistorybufAddLine lineAsAnsi self line = some added ∧ added.ring.WellFormed ∧
      added.ring.xnum = self.ring.xnum ∧ added.ring.ynum = self.ring.ynum ∧
      added.ring.count = min (self.ring.count + 1) self.ring.ynum ∧
      added.ring.rows =
        (self.ring.rows ++ [line.cells]).drop (self.ring.count + 1 - self.ring.ynum) ∧
      self.Received lineAsAnsi added
        ((self.ring.rows ++ [line.cells]).take (self.ring.count + 1 - self.ring.ynum)) := by
  obtain ⟨ring, addEq, ringWf, ringX, ringY, ringCount, ringRows⟩ :=
    historybufAddLine_rows wf hline
  have positive := wf.ynumPositive
  have fits := wf.countLe
  unfold pagedHistorybufAddLine
  by_cases full : self.ring.count = self.ring.ynum
  · obtain ⟨oldest, hold⟩ : ∃ oldest, self.ring.ring[0]? = some oldest :=
      ⟨_, List.getElem?_eq_getElem (by rw [wf.ringLength]; exact positive)⟩
    obtain ⟨paged, pageEq, pagedRing, received⟩ := pageOut_spec lineAsAnsi wf hold
    refine ⟨{ paged with ring := ring }, ?_, ringWf, ringX, ringY, ringCount, ringRows, ?_⟩
    · rw [if_pos full, pageEq]
      simp only [Option.bind_eq_bind, Option.bind_some, pagedRing, addEq]
    · have dropped : (self.ring.rows ++ [line.cells]).take
          (self.ring.count + 1 - self.ring.ynum) = [oldest] := by
        have first : self.ring.rows[0]? = some oldest := by
          rw [HistoryBuf.rows, List.getElem?_take_of_lt (by omega), hold]
        obtain ⟨rest, rowsEq⟩ : ∃ rest, self.ring.rows = oldest :: rest := by
          cases rows : self.ring.rows with
          | nil => simp [rows] at first
          | cons head rest =>
            rw [rows, List.getElem?_cons_zero] at first
            exact ⟨rest, by rw [Option.some.inj first]⟩
        rw [rowsEq, show self.ring.count + 1 - self.ring.ynum = 1 by omega]
        rfl
      rw [dropped]
      exact received
  · refine ⟨{ self with ring := ring }, ?_, ringWf, ringX, ringY, ringCount, ringRows, [], ?_, rfl⟩
    · rw [if_neg full]
      simp only [Option.bind_eq_bind, Option.bind_some, addEq]
    · rw [show self.ring.count + 1 - self.ring.ynum = 0 by omega]
      rfl

/-! ### One step -/

/-- One `screen_index` appends a blank row and drops what the scrollback has no room for. -/
theorem screenIndex_spec {self : Screen} (standing : self.AtMainBottom) :
    ∃ next, screenIndex lineAsAnsi self = some next ∧ next.AtMainBottom ∧
      next.columns = self.columns ∧
      next.historybuf.ring.ynum = self.historybuf.ring.ynum ∧
      next.historybuf.ring.count =
        min (self.historybuf.ring.count + 1) self.historybuf.ring.ynum ∧
      next.allRows = (self.allRows ++ [blankRow self.columns]).drop
        (self.historybuf.ring.count + 1 - self.historybuf.ring.ynum) ∧
      self.historybuf.Received lineAsAnsi next.historybuf
        (self.allRows.take (self.historybuf.ring.count + 1 - self.historybuf.ring.ynum)) := by
  have wf := standing.linebuf
  have positive := standing.linesPositive
  have rowsLength := wf.rowsLength
  rw [standing.linebufY] at rowsLength
  obtain ⟨top, below, rowsEq⟩ : ∃ top below, self.mainLinebuf.rows = top :: below :=
    List.exists_cons_of_length_pos (by omega)
  rw [rowsEq, List.length_cons] at rowsLength
  obtain ⟨rotated, indexEq, rotatedWf, rotatedSize, rotatedRows⟩ := linebufIndex_rows wf
    (by rw [standing.linebufY]; exact positive)
  rw [standing.linebufY] at indexEq
  rw [rowsEq, List.rotate_cons_succ, List.rotate_zero] at rotatedRows
  have rotatedX := rotatedSize.xnum.trans standing.linebufX
  have rotatedY := rotatedSize.ynum.trans standing.linebufY
  -- the row that was on top is the one stored in the scrollback
  have bottomEq : rotated.rows[self.lines - 1]? = some top := by
    rw [rotatedRows, List.getElem?_append_right (by omega), show
      self.lines - 1 - below.length = 0 by omega]
    rfl
  obtain ⟨attrs, lineEq⟩ := linebufInitLine_spec rotatedWf
    (by rw [rotatedX]; exact standing.columnsPositive) (by omega) bottomEq
  have topIn : top ∈ self.mainLinebuf.rows := by simp [rowsEq]
  have topLength : ({ cells := top, attrs := attrs } : Line).cells.length =
      self.historybuf.ring.xnum :=
    ((wf.rowsRowLength topIn).trans standing.linebufX).trans standing.historyX.symm
  obtain ⟨added, addEq, addedWf, addedX, addedY, addedCount, addedRows, received⟩ :=
    pagedHistorybufAddLine_spec lineAsAnsi standing.history topLength
  obtain ⟨cleared, clearEq, clearedWf, clearedSize, clearedRows⟩ :=
    linebufClearLine_rows rotatedWf (y := self.lines - 1) (by omega) true
  have fits := standing.history.countLe
  have historyLength := standing.history.rowsLength
  have bottomRows : cleared.rows = below ++ [blankRow self.columns] := by
    rw [clearedRows, rotatedRows, rotatedX, List.set_append_right _ _ (by omega), show
      self.lines - 1 - below.length = 0 by omega]
    rfl
  refine ⟨{ self with
      mainLinebuf := cleared
      historybuf := added
      historyLineAddedCount := (self.historyLineAddedCount + 1) % 2 ^ 32 }, ?_,
    ⟨standing.columnsPositive, positive, standing.onMain, clearedWf,
      clearedSize.xnum.trans rotatedX, clearedSize.ynum.trans rotatedY, addedWf,
      addedX.trans standing.historyX, standing.marginTop, standing.marginBottom,
      standing.cursor⟩, rfl, addedY, addedCount, ?_, ?_⟩
  · rw [screenIndex, if_pos standing.cursor, standing.marginTop, standing.marginBottom]
    simp only [indexUp, addBottomToHistory, Screen.linebuf, Screen.setLinebuf, standing.onMain,
      standing.marginTop, standing.marginBottom, if_true, indexEq, lineEq, addEq, clearEq,
      Option.bind_eq_bind, Option.bind_some, and_self]
  · simp only [Screen.allRows]
    rw [addedRows, bottomRows, rowsEq, ← List.drop_append_of_le_length
      (by rw [List.length_append, historyLength, List.length_singleton]; omega)]
    simp
  · have shorter := @List.take_append_of_le_length _ _ below _
      (show self.historybuf.ring.count + 1 - self.historybuf.ring.ynum ≤
        (self.historybuf.ring.rows ++ [top]).length by
          rw [List.length_append, historyLength, List.length_singleton]; omega)
    rw [Screen.allRows, rowsEq, List.append_cons, shorter]
    exact received

theorem newScreen_atMainBottom {columns : Nat} (hcolumns : 0 < columns)
    (scrollback pagerhistSz : Nat) :
    (newScreen 1 columns scrollback pagerhistSz).AtMainBottom where
  columnsPositive := hcolumns
  linesPositive := Nat.one_pos
  onMain := rfl
  linebuf := allocLinebuf_wellFormed 1 columns
  linebufX := rfl
  linebufY := rfl
  history := blankHistorybuf_wellFormed (Nat.lt_of_lt_of_le Nat.one_pos (Nat.le_max_right _ _))
    hcolumns
  historyX := rfl
  marginTop := rfl
  marginBottom := rfl
  cursor := rfl

/-! ### Any number of steps -/

theorem drop_window {α : Type} (rows : List α) (blank : α) {dropped : Nat} (more : Nat)
    (h : dropped ≤ rows.length) :
    (rows.drop dropped ++ [blank]).drop more = (rows ++ [blank]).drop (dropped + more) := by
  rw [← List.drop_append_of_le_length h, List.drop_drop]

theorem take_window {α : Type} (rows : List α) (blank : α) {dropped more : Nat}
    (h : dropped + more ≤ rows.length) :
    (rows ++ [blank]).take (dropped + more) =
      rows.take dropped ++ (rows.drop dropped).take more := by
  rw [List.take_append_of_le_length h, List.take_add]

/-- What is left of a screen and its scrollback after `n` steps: the rows they held before and
`n` blank rows below them, without those in front that the scrollback has no room for, which
the pager history has received, oldest first. -/
structure Screen.ScrolledBy (before : Screen) (n : Nat) (after : Screen) : Prop where
  standing : after.AtMainBottom
  columns : after.columns = before.columns
  capacity : after.historybuf.ring.ynum = before.historybuf.ring.ynum
  count : after.historybuf.ring.count =
    min (before.historybuf.ring.count + n) before.historybuf.ring.ynum
  rows : after.allRows = (before.allRows ++ List.replicate n (blankRow before.columns)).drop
    (before.historybuf.ring.count + n - before.historybuf.ring.ynum)
  paged : before.historybuf.Received lineAsAnsi after.historybuf
    ((before.allRows ++ List.replicate n (blankRow before.columns)).take
      (before.historybuf.ring.count + n - before.historybuf.ring.ynum))

theorem Screen.ScrolledBy.start {self : Screen} (standing : self.AtMainBottom) :
    self.ScrolledBy lineAsAnsi 0 self := by
  have fits := standing.history.countLe
  have nothing : self.historybuf.ring.count + 0 - self.historybuf.ring.ynum = 0 := by omega
  refine ⟨standing, rfl, rfl, by omega, ?_, [], ?_, rfl⟩
  · rw [nothing]
    simp
  · rw [nothing]
    rfl

theorem Screen.ScrolledBy.next {before s : Screen} {n : Nat} (standing : before.AtMainBottom)
    (h : before.ScrolledBy lineAsAnsi n s) :
    ∃ after, screenIndex lineAsAnsi s = some after ∧
      before.ScrolledBy lineAsAnsi (n + 1) after := by
  obtain ⟨after, stepEq, afterStanding, afterColumns, afterY, afterCount, afterRows, received⟩ :=
    screenIndex_spec lineAsAnsi h.standing
  rw [h.columns, h.capacity, h.count] at afterRows
  rw [h.capacity, h.count, h.rows] at received
  have fits := standing.history.countLe
  have positive := standing.linesPositive
  have enough : before.historybuf.ring.count + n <
      (before.allRows ++ List.replicate n (blankRow before.columns)).length := by
    rw [List.length_append, List.length_replicate, Screen.allRows, List.length_append,
      standing.history.rowsLength, standing.linebuf.rowsLength, standing.linebufY]
    omega
  have window : before.historybuf.ring.count + (n + 1) - before.historybuf.ring.ynum =
      (before.historybuf.ring.count + n - before.historybuf.ring.ynum) +
      (min (before.historybuf.ring.count + n) before.historybuf.ring.ynum + 1 -
        before.historybuf.ring.ynum) := by omega
  refine ⟨after, stepEq, afterStanding, afterColumns.trans h.columns, afterY.trans h.capacity,
    ?_, ?_, ?_⟩
  · rw [afterCount, h.capacity, h.count]
    omega
  · rw [afterRows, h.rows, drop_window _ _ _ (by omega), ← window, List.append_assoc,
      ← List.replicate_succ']
  · rw [window, List.replicate_succ', ← List.append_assoc, take_window _ _ (by omega)]
    exact h.paged.trans received

end Smelly
