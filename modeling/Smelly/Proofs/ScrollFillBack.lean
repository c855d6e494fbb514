/-
Module: Smelly.Proofs.ScrollFillBack
Purpose: Scrolling the screen up and filling it back from the scrollback: the rows of the screen
  are what they were before, and the scrollback has lost only the rows it had no room for.
Trusted boundary: none
-/
import Smelly.Proofs.ScrollConservation

namespace Smelly

open Checked

/-- A well-formed main screen with any margins. -/
structure Screen.OnMain (s : Screen) : Prop where
  columnsPositive : 0 < s.columns
  onMain : s.onMain = true
  linebuf : s.mainLinebuf.WellFormed
  linebufX : s.mainLinebuf.xnum = s.columns
  linebufY : s.mainLinebuf.ynum = s.lines
  history : s.historybuf.ring.WellFormed
  historyX : s.historybuf.ring.xnum = s.columns
  margins : s.marginTop ≤ s.marginBottom
  bottom : s.marginBottom < s.lines

/-- The rows that `screen_scroll` pushes into the scrollback and that are still there afterwards:
none under a top margin, and no more than it holds. -/
def Screen.rowsPushed (self : Screen) (n : Nat) : Nat :=
  if self.marginTop = 0 then min n self.historybuf.ring.ynum else 0

/-- The scrollback, oldest row first, and below it the scroll region of a screen without top
margin. -/
def Screen.tape (self : Screen) : List Row :=
  self.historybuf.ring.rows ++ self.mainLinebuf.rows.take (self.marginBottom + 1)

/-- The rows below the scroll region. -/
def Screen.below (self : Screen) : List Row :=
  self.mainLinebuf.rows.drop (self.marginBottom + 1)

/-- The screen after some scrolling of `before`: so many rows in the scrollback, and these rows in
the scrollback and the scroll region. -/
structure Screen.Rolled (before : Screen) (count : Nat) (tape : List Row) (s : Screen) : Prop where
  standing : s.OnMain
  columns : s.columns = before.columns
  lines : s.lines = before.lines
  marginTop : s.marginTop = before.marginTop
  marginBottom : s.marginBottom = before.marginBottom
  capacity : s.historybuf.ring.ynum = before.historybuf.ring.ynum
  count : s.historybuf.ring.count = count
  tape : s.tape = tape
  below : s.below = before.below

theorem Screen.OnMain.rolled {s : Screen} (standing : s.OnMain) :
    s.Rolled s.historybuf.ring.count s.tape s :=
  ⟨standing, rfl, rfl, rfl, rfl, rfl, rfl, rfl, rfl⟩

namespace Screen.OnMain

variable {s : Screen}

/-- The rows of the screen, with the top row of the region and the others apart. -/
theorem exists_region (standing : s.OnMain) :
    ∃ top region, s.mainLinebuf.rows = top :: region ++ s.below ∧
      region.length = s.marginBottom ∧
      s.tape = s.historybuf.ring.rows ++ (top :: region) := by
  have rowsLength := standing.linebuf.rowsLength
  have bottom := standing.bottom
  have lines := standing.linebufY
  have regionLength : (s.mainLinebuf.rows.take (s.marginBottom + 1)).length =
      s.marginBottom + 1 := by
    rw [List.length_take, rowsLength]
    omega
  obtain ⟨top, region, regionEq⟩ := List.exists_cons_of_length_pos
    (show 0 < (s.mainLinebuf.rows.take (s.marginBottom + 1)).length by omega)
  refine ⟨top, region, ?_, ?_, ?_⟩
  · rw [← regionEq]
    exact (List.take_append_drop _ _).symm
  · rw [regionEq] at regionLength
    exact Nat.succ.inj regionLength
  · rw [Screen.tape, regionEq]

end Screen.OnMain

/-! ### One line up -/

/-- A screen with other rows in its scroll region and another scrollback. -/
theorem Screen.OnMain.of_rows {s : Screen} (standing : s.OnMain) {main : LineBuf}
    {history : PagedHistory} {added : Nat} (mainWf : main.WellFormed)
    (size : s.mainLinebuf.SameSize main) (historyWf : history.ring.WellFormed)
    (historyX : history.ring.xnum = s.historybuf.ring.xnum) :
    Screen.OnMain { s with
      mainLinebuf := main
      historybuf := history
      historyLineAddedCount := added } where
  columnsPositive := standing.columnsPositive
  onMain := standing.onMain
  linebuf := mainWf
  linebufX := size.xnum.trans standing.linebufX
  linebufY := size.ynum.trans standing.linebufY
  history := historyWf
  historyX := historyX.trans standing.historyX
  margins := standing.margins
  bottom := standing.bottom

/-- What the tape and the rows below it are when the rows are these. -/
theorem Screen.tape_of_rows {s : Screen} {region below : List Row}
    (rows : s.mainLinebuf.rows = region ++ below) (length : region.length = s.marginBottom + 1) :
    s.tape = s.historybuf.ring.rows ++ region ∧ s.below = below := by
  rw [Screen.tape, Screen.below, rows, List.take_left' length, List.drop_left' length]
  exact ⟨rfl, rfl⟩

/-- `INDEX_UP` without a top margin: a blank row enters at the bottom of the region, and what the
scrollback has no room for leaves at its oldest end. -/
theorem indexUp_rolled (lineAsAnsi : LineAsAnsi) {before s : Screen} {count : Nat} {tape : List Row}
    (top : before.marginTop = 0) (h : before.Rolled count tape s) :
    ∃ next, indexUp lineAsAnsi s before.marginTop before.marginBottom = some next ∧
      before.Rolled (min (count + 1) before.historybuf.ring.ynum)
        ((tape ++ [blankRow before.columns]).drop (count + 1 - before.historybuf.ring.ynum))
        next := by
  have standing := h.standing
  have wf := standing.linebuf
  have bottom := standing.bottom
  have lines := standing.linebufY
  obtain ⟨first, region, rowsEq, regionLength, tapeEq⟩ := standing.exists_region
  obtain ⟨rotated, indexEq, rotatedWf, rotatedSize, rotatedRows⟩ :=
    linebufIndex_region wf (Nat.zero_le s.marginBottom) (by omega)
  rw [rowsEq, Segment.on_front _ _ _ (by rw [List.length_cons, regionLength]),
    List.rotate_cons_succ, List.rotate_zero] at rotatedRows
  have rotatedX := rotatedSize.xnum.trans standing.linebufX
  have rotatedY := rotatedSize.ynum.trans lines
  have bottomEq : rotated.rows[s.marginBottom]? = some first := by
    rw [rotatedRows, List.append_assoc, List.getElem?_append_right (by omega), regionLength,
      Nat.sub_self]
    rfl
  obtain ⟨attrs, lineEq⟩ := linebufInitLine_spec rotatedWf
    (by rw [rotatedX]; exact standing.columnsPositive) (by omega) bottomEq
  have firstIn : first ∈ s.mainLinebuf.rows := by simp [rowsEq]
  have firstLength : ({ cells := first, attrs := attrs } : Line).cells.length =
      s.historybuf.ring.xnum :=
    ((wf.rowsRowLength firstIn).trans standing.linebufX).trans standing.historyX.symm
  obtain ⟨added, addEq, addedWf, addedX, addedY, addedCount, addedRows, -⟩ :=
    pagedHistorybufAddLine_spec lineAsAnsi standing.history firstLength
  obtain ⟨cleared, clearEq, clearedWf, clearedSize, clearedRows⟩ :=
    linebufClearLine_rows rotatedWf (y := s.marginBottom) (by omega) true
  have finalRows : cleared.rows = (region ++ [blankRow before.columns]) ++ s.below := by
    rw [clearedRows, rotatedRows, rotatedX, h.columns, List.append_assoc, List.append_assoc,
      List.set_append_right _ _ (by omega), regionLength, Nat.sub_self]
    rfl
  obtain ⟨next, hnext⟩ : ∃ next : Screen, next = { s with
      mainLinebuf := cleared
      historybuf := added
      historyLineAddedCount := (s.historyLineAddedCount + 1) % 2 ^ 32 } := ⟨_, rfl⟩
  have finalRegion := Screen.tape_of_rows (s := next) (by rw [hnext]; exact finalRows)
    (by rw [hnext, List.length_append, regionLength]; rfl)
  have nextStanding : next.OnMain := by
    rw [hnext]
    exact standing.of_rows clearedWf (rotatedSize.trans clearedSize) addedWf addedX
  refine ⟨next, ?_, nextStanding, ?_, ?_, ?_, ?_, ?_, ?_, ?_, ?_⟩
  · rw [← h.marginTop, ← h.marginBottom]
    have noTop := h.marginTop.trans top
    simp only [indexUp, addBottomToHistory, Screen.linebuf, Screen.setLinebuf, standing.onMain,
      noTop, if_true, indexEq, lineEq, addEq, clearEq, Option.bind_eq_bind, Option.bind_some,
      and_self, hnext]
  · rw [hnext]
    exact h.columns
  · rw [hnext]
    exact h.lines
  · rw [hnext]
    exact h.marginTop
  · rw [hnext]
    exact h.marginBottom
  · rw [hnext]
    exact addedY.trans h.capacity
  · rw [hnext, ← h.count, ← h.capacity]
    exact addedCount
  · have fits := standing.history.countLe
    have historyLength := standing.history.rowsLength
    have newRows : next.historybuf.ring.rows =
        (s.historybuf.ring.rows ++ [first]).drop (count + 1 - before.historybuf.ring.ynum) := by
      rw [hnext, ← h.count, ← h.capacity]
      exact addedRows
    rw [finalRegion.1, newRows, ← h.tape, tapeEq, ← List.drop_append_of_le_length
      (by rw [List.length_append, historyLength, List.length_singleton, ← h.count, ← h.capacity];
          omega)]
    simp
  · exact finalRegion.2.trans h.below

/-! ### One line back -/

theorem linebufCopyLineTo_rows {self : LineBuf} (wf : self.WellFormed) {y : Nat}
    (hy : y < self.ynum) {line : Line} (hline : line.cells.length = self.xnum) :
    ∃ lb, linebufCopyLineTo self line y = some lb ∧ lb.WellFormed ∧ self.SameSize lb ∧
      lb.rows = self.rows.set y line.cells := by
  obtain ⟨row, hrow, rowLength⟩ := wf.exists_rows_getElem? hy
  have copied : copyLine line.cells row = line.cells := by
    rw [copyLine, rowLength, ← hline, List.take_length, List.drop_of_length_le (by omega),
      List.append_nil]
  obtain ⟨stored, storeEq, storedWf, storedSize, storedRows, storedAttrs⟩ := onRow_spec wf hy hrow
    (fun row => some (copyLine line.cells row)) (congrArg some copied) (by omega)
  have inside : y < stored.lineAttrs.length := by
    rw [storedAttrs, wf.attrsLength]
    exact hy
  have attrsLength : (stored.lineAttrs.set y { line.attrs with hasDirtyText := true }).length =
      stored.lineAttrs.length := List.length_set
  refine ⟨_, ?_, storedWf.setAttrs _ attrsLength, storedSize.trans ⟨rfl, rfl⟩,
    (setLineAttrs_rows attrsLength).trans storedRows⟩
  rw [linebufCopyLineTo, storeEq]
  exact congrArg (· >>= _) (setAt_of_lt inside _)

/-- `historybuf_pop_line` takes the newest row away. -/
theorem pagedHistorybufPopLine_spec {self : PagedHistory} (wf : self.ring.WellFormed)
    {rows : List Row} {newest : Row} (hrows : self.ring.rows = rows ++ [newest]) :
    ∃ popped line, pagedHistorybufPopLine self = some (some (popped, line)) ∧
      popped.ring.WellFormed ∧ popped.ring.xnum = self.ring.xnum ∧
      popped.ring.ynum = self.ring.ynum ∧ popped.ring.count + 1 = self.ring.count ∧
      popped.ring.rows = rows ∧ line.cells = newest := by
  have rowsLength := wf.rowsLength
  rw [hrows, List.length_append, List.length_singleton] at rowsLength
  have fits := wf.countLe
  have newestEq : self.ring.ring[self.ring.count - 1]? = some newest := by
    have last : self.ring.rows[self.ring.count - 1]? = some newest := by
      rw [hrows, List.getElem?_append_right (by omega), show
        self.ring.count - 1 - rows.length = 0 by omega]
      rfl
    rw [← last, HistoryBuf.rows, List.getElem?_take_of_lt (by omega)]
  obtain ⟨line, slotEq, cellsEq⟩ : ∃ line,
      self.initSlot ((self.ring.startOfData + self.ring.count - 1) % self.ring.ynum) = some line ∧
        line.cells = newest := by
    obtain ⟨attrs, slotEq⟩ := historybufInitSlot_spec wf newestEq
    rw [← Nat.add_sub_assoc (by omega)] at slotEq
    unfold PagedHistory.initSlot
    cases self.pagerhist with
    | none => exact ⟨_, slotEq, rfl⟩
    | some ph =>
      unfold pagedInitSlot
      simp only [slotEq, Option.bind_eq_bind, Option.bind_some]
      split <;> exact ⟨_, rfl, rfl⟩
  refine ⟨{ self with ring := { self.ring with count := self.ring.count - 1 } }, line, ?_,
    ⟨wf.xnumPositive, wf.ynumPositive, wf.cellsLength, wf.rowLength, wf.attrsLength, wf.startLt,
      (Nat.sub_le _ _).trans fits⟩, rfl, rfl, by dsimp only; omega, ?_, cellsEq⟩
  · rw [pagedHistorybufPopLine, if_neg (by omega), slotEq]
    rfl
  · have front : self.ring.rows.take (self.ring.count - 1) = rows := by
      rw [hrows]
      exact List.take_left' (by omega)
    rw [← front, HistoryBuf.rows, HistoryBuf.rows, List.take_take,
      Nat.min_eq_left (Nat.sub_le _ _)]
    rfl

/-- A round of `_reverse_scroll` that fills a region at the top of the screen: its bottom row
goes, and the newest row of the scrollback comes back above it. -/
theorem reverseScrollRound_rolled {before s : Screen} {count : Nat} {tape : List Row}
    (top : before.marginTop = 0) (h : before.Rolled (count + 1) tape s) :
    ∃ next, reverseScrollRound s before.marginTop before.marginBottom true = some next ∧
      before.Rolled count tape.dropLast next := by
  have standing := h.standing
  have bottom := standing.bottom
  have lines := standing.linebufY
  obtain ⟨first, region, rowsEq, regionLength, tapeEq⟩ := standing.exists_region
  have historyLength := standing.history.rowsLength
  obtain ⟨history, newest, historyEq⟩ : ∃ history newest,
      s.historybuf.ring.rows = history ++ [newest] := by
    rcases List.eq_nil_or_concat s.historybuf.ring.rows with empty | ⟨history, newest, historyEq⟩
    · rw [empty, h.count] at historyLength
      cases historyLength
    · exact ⟨history, newest, historyEq.trans List.concat_eq_append⟩
  obtain ⟨popped, line, popEq, poppedWf, poppedX, poppedY, poppedCount, poppedRows, cellsEq⟩ :=
    pagedHistorybufPopLine_spec standing.history historyEq
  obtain ⟨rotated, indexEq, rotatedWf, rotatedSize, rotatedRows⟩ :=
    linebufReverseIndex_region standing.linebuf (Nat.zero_le s.marginBottom) (by omega)
  rw [rowsEq, Segment.on_front _ _ _ (by rw [List.length_cons, regionLength])] at rotatedRows
  have rotatedY := rotatedSize.ynum.trans lines
  obtain ⟨cleared, clearEq, clearedWf, clearedSize, clearedRows⟩ :=
    linebufClearLine_rows rotatedWf (y := 0) (by omega) true
  have newestLength : line.cells.length = cleared.xnum := by
    have inRing : newest ∈ s.historybuf.ring.rows := by simp [historyEq]
    rw [cellsEq, standing.history.rowsRowLength inRing, standing.historyX, clearedSize.xnum,
      rotatedSize.xnum, standing.linebufX]
  obtain ⟨main, copyEq, mainWf, mainSize, mainRows⟩ := linebufCopyLineTo_rows clearedWf
    (y := 0) (by rw [clearedSize.ynum]; omega) newestLength
  -- the bottom row of the region is brought to its top and overwritten there
  have finalRows : main.rows = (newest :: (first :: region).dropLast) ++ s.below := by
    obtain ⟨rest, last, regionEq⟩ := List.eq_nil_or_concat (first :: region) |>.resolve_left
      (List.cons_ne_nil first region)
    rw [regionEq] at rotatedRows ⊢
    have turned : (rest.concat last).rotate ((rest.concat last).length - 1) = last :: rest := by
      rw [List.concat_eq_append, List.length_append, List.length_singleton, Nat.add_sub_cancel,
        List.rotate_append_length_eq]
      rfl
    rw [mainRows, clearedRows, rotatedRows, turned, cellsEq, List.concat_eq_append,
      List.dropLast_concat]
    rfl
  obtain ⟨next, hnext⟩ : ∃ next : Screen, next = { s with
      mainLinebuf := main
      historybuf := popped } := ⟨_, rfl⟩
  have finalRegion := Screen.tape_of_rows (s := next) (by rw [hnext]; exact finalRows)
    (by rw [hnext, List.length_cons, List.length_dropLast, List.length_cons, regionLength]; rfl)
  have nextStanding : next.OnMain := by
    rw [hnext]
    exact standing.of_rows mainWf ((rotatedSize.trans clearedSize).trans mainSize) poppedWf poppedX
  refine ⟨next, ?_, nextStanding, ?_, ?_, ?_, ?_, ?_, ?_, ?_, ?_⟩
  · rw [← h.marginTop, ← h.marginBottom]
    have noTop := h.marginTop.trans top
    simp only [reverseScrollRound, popEq, indexDown, Screen.linebuf, Screen.setLinebuf,
      standing.onMain, noTop, if_true, indexEq, clearEq, copyEq, Option.bind_eq_bind,
      Option.bind_some, hnext]
  · rw [hnext]
    exact h.columns
  · rw [hnext]
    exact h.lines
  · rw [hnext]
    exact h.marginTop
  · rw [hnext]
    exact h.marginBottom
  · rw [hnext]
    exact poppedY.trans h.capacity
  · rw [hnext]
    exact Nat.succ.inj (poppedCount.trans h.count)
  · have poppedRows' : next.historybuf.ring.rows = history := by
      rw [hnext]
      exact poppedRows
    rw [finalRegion.1, poppedRows', ← h.tape, tapeEq, historyEq,
      List.dropLast_append_of_ne_nil (List.cons_ne_nil first region), List.append_assoc]
    rfl
  · exact finalRegion.2.trans h.below

/-! ### Any number of lines -/

/-- `screen_scroll` without a top margin. -/
theorem screenScroll_rolled (lineAsAnsi : LineAsAnsi) {s : Screen} (standing : s.OnMain)
    (top : s.marginTop = 0) (n : Nat) :
    ∃ scrolled, screenScroll lineAsAnsi s n = some scrolled ∧
      s.Rolled (min (s.historybuf.ring.count + n) s.historybuf.ring.ynum)
        ((s.tape ++ List.replicate n (blankRow s.columns)).drop
          (s.historybuf.ring.count + n - s.historybuf.ring.ynum)) scrolled := by
  have fits := standing.history.countLe
  have tapeLength : s.historybuf.ring.count < s.tape.length := by
    obtain ⟨first, region, -, -, tapeEq⟩ := standing.exists_region
    rw [tapeEq, List.length_append, standing.history.rowsLength, List.length_cons]
    omega
  have start : s.Rolled (min (s.historybuf.ring.count + 0) s.historybuf.ring.ynum)
      ((s.tape ++ List.replicate 0 (blankRow s.columns)).drop
        (s.historybuf.ring.count + 0 - s.historybuf.ring.ynum)) s := by
    rw [Nat.add_zero, Nat.min_eq_left fits, Nat.sub_eq_zero_of_le fits, List.drop_zero,
      List.replicate_zero, List.append_nil]
    exact standing.rolled
  have round : ∀ i s', 0 ≤ i → i < 0 + n →
      s.Rolled (min (s.historybuf.ring.count + i) s.historybuf.ring.ynum)
        ((s.tape ++ List.replicate i (blankRow s.columns)).drop
          (s.historybuf.ring.count + i - s.historybuf.ring.ynum)) s' →
      ∃ next, indexUp lineAsAnsi s' s.marginTop s.marginBottom = some next ∧
        s.Rolled (min (s.historybuf.ring.count + (i + 1)) s.historybuf.ring.ynum)
          ((s.tape ++ List.replicate (i + 1) (blankRow s.columns)).drop
            (s.historybuf.ring.count + (i + 1) - s.historybuf.ring.ynum)) next := by
    intro i s' _ _ h
    obtain ⟨next, stepEq, h'⟩ := indexUp_rolled lineAsAnsi top h
    refine ⟨next, stepEq, ?_⟩
    have count : min (min (s.historybuf.ring.count + i) s.historybuf.ring.ynum + 1)
        s.historybuf.ring.ynum =
          min (s.historybuf.ring.count + (i + 1)) s.historybuf.ring.ynum := by omega
    have dropped : s.historybuf.ring.count + i - s.historybuf.ring.ynum +
        (min (s.historybuf.ring.count + i) s.historybuf.ring.ynum + 1 -
          s.historybuf.ring.ynum) =
        s.historybuf.ring.count + (i + 1) - s.historybuf.ring.ynum := by omega
    have enough : s.historybuf.ring.count + i - s.historybuf.ring.ynum ≤
        (s.tape ++ List.replicate i (blankRow s.columns)).length := by
      rw [List.length_append, List.length_replicate]
      omega
    rw [count, drop_window _ _ _ enough, dropped, List.append_assoc, ← List.replicate_succ'] at h'
    exact h'
  have steps := forUp_invariant (fun i s' =>
    s.Rolled (min (s.historybuf.ring.count + i) s.historybuf.ring.ynum)
      ((s.tape ++ List.replicate i (blankRow s.columns)).drop
        (s.historybuf.ring.count + i - s.historybuf.ring.ynum)) s') start round
  rw [Nat.zero_add] at steps
  exact steps

/-- The rounds of `_reverse_scroll` while there are rows in the scrollback. -/
theorem reverseScroll_rolled {before s : Screen} {count n : Nat} {tape : List Row}
    (top : before.marginTop = 0) (h : before.Rolled count tape s) (enough : n ≤ count) :
    ∃ back, forUp 0 n
        (fun _ s => reverseScrollRound s before.marginTop before.marginBottom true) s = some back ∧
      before.Rolled (count - n) (tape.take (tape.length - n)) back := by
  have start : before.Rolled (count - 0) (tape.take (tape.length - 0)) s := by
    rw [Nat.sub_zero, Nat.sub_zero, List.take_length]
    exact h
  have round : ∀ i s', 0 ≤ i → i < 0 + n →
      before.Rolled (count - i) (tape.take (tape.length - i)) s' →
      ∃ next, reverseScrollRound s' before.marginTop before.marginBottom true = some next ∧
        before.Rolled (count - (i + 1)) (tape.take (tape.length - (i + 1))) next := by
    intro i s' _ hi h
    rw [show count - i = count - (i + 1) + 1 by omega] at h
    obtain ⟨next, stepEq, h'⟩ := reverseScrollRound_rolled top h
    refine ⟨next, stepEq, ?_⟩
    have shorter : (tape.take (tape.length - i)).dropLast = tape.take (tape.length - (i + 1)) := by
      rw [List.dropLast_eq_take, List.length_take, List.take_take]
      congr 1
      omega
    rw [← shorter]
    exact h'
  have steps := forUp_invariant
    (fun i s' => before.Rolled (count - i) (tape.take (tape.length - i)) s') start round
  rw [Nat.zero_add] at steps
  exact steps

/-- A new screen of three rows. -/
theorem newScreen_onMain : (newScreen 3 2 5 0).OnMain where
  columnsPositive := by decide
  onMain := rfl
  linebuf := allocLinebuf_wellFormed 3 2
  linebufX := rfl
  linebufY := rfl
  history := blankHistorybuf_wellFormed (by decide) (by decide)
  historyX := rfl
  margins := by decide
  bottom := by decide

/-- A row of one character. -/
def letterRow (ch : UInt32) : Row := [{ cpu := { ch := ch } }]

/-- A screen with these rows, of one column, and a scrollback of one slot that may be in use. -/
def screenOfRows (rows history : List Row) (top bottom : Nat) : Screen :=
  { columns := 1
    lines := rows.length
    marginTop := top
    marginBottom := bottom
    mainLinebuf := { allocLinebuf rows.length 1 with cells := rows }
    altLinebuf := allocLinebuf rows.length 1
    historybuf :=
      { ring :=
          { xnum := 1, ynum := 1, cells := history, lineAttrs := [{}], count := history.length }
        pagerhist := none } }

end Smelly
