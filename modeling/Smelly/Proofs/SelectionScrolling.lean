/-
Module: Smelly.Proofs.SelectionScrolling
Purpose: A selection moves with its text when a screen scrolls, and when rows of it have left the
  scrollback the others keep their text where the columns of its first row are those of the row
  that is first then.
Trusted boundary: none
-/
import Smelly.Core.Selection
import Smelly.Proofs.HistoryExport
import Smelly.Proofs.RewrapWriter
import Smelly.Proofs.ScrollFillBack

namespace Smelly

open Checked

/-! ### Selections that move -/

/-- A selection after the screen has scrolled up `n` times. -/
structure Moved (n : Nat) (sel moved : Selection) : Prop where
  startY : moved.startY = sel.startY - n
  endY : moved.endY = sel.endY - n
  startX : moved.start.x = sel.start.x
  startHalf : moved.start.inLeftHalfOfCell = sel.start.inLeftHalfOfCell
  endX : moved.end_.x = sel.end_.x
  endHalf : moved.end_.inLeftHalfOfCell = sel.end_.inLeftHalfOfCell
  leftToRight : selectionIsLeftToRight moved = selectionIsLeftToRight sel
  rectangle : moved.rectangleSelect = sel.rectangleSelect

theorem Moved.refl (sel : Selection) : Moved 0 sel sel where
  startY := by omega
  endY := by omega
  startX := rfl
  startHalf := rfl
  endX := rfl
  endHalf := rfl
  leftToRight := rfl
  rectangle := rfl

theorem Moved.trans {n m : Nat} {sel moved further : Selection} (h : Moved n sel moved)
    (h' : Moved m moved further) : Moved (n + m) sel further where
  startY := by
    rw [h'.startY, h.startY]
    omega
  endY := by
    rw [h'.endY, h.endY]
    omega
  startX := h'.startX.trans h.startX
  startHalf := h'.startHalf.trans h.startHalf
  endX := h'.endX.trans h.endX
  endHalf := h'.endHalf.trans h.endHalf
  leftToRight := h'.leftToRight.trans h.leftToRight
  rectangle := h'.rectangle.trans h.rectangle

/-- One step of `index_selection`: a boundary in the top row stays there, and the number of rows it
has been scrolled by grows. -/
theorem indexSelectionUp_moved (sel : Selection) : Moved 1 sel (indexSelectionUp sel) := by
  unfold indexSelectionUp
  by_cases startTop : sel.start.y = 0
  · by_cases endTop : sel.end_.y = 0
    · simp only [if_pos startTop, if_pos endTop]
      refine ⟨?_, ?_, rfl, rfl, rfl, rfl, rfl, rfl⟩
      · simp only [Selection.startY]
        omega
      · simp only [Selection.endY]
        omega
    · simp only [if_pos startTop, if_neg endTop]
      refine ⟨?_, ?_, rfl, rfl, rfl, rfl, rfl, rfl⟩
      · simp only [Selection.startY]
        omega
      · simp only [Selection.endY, SelectionBoundary.up]
        omega
  · by_cases endTop : sel.end_.y = 0
    · simp only [if_neg startTop, if_pos endTop]
      refine ⟨?_, ?_, rfl, rfl, rfl, rfl, rfl, rfl⟩
      · simp only [Selection.startY, SelectionBoundary.up]
        omega
      · simp only [Selection.endY]
        omega
    · simp only [if_neg startTop, if_neg endTop]
      refine ⟨?_, ?_, rfl, rfl, rfl, rfl, rfl, rfl⟩
      · simp only [Selection.startY, SelectionBoundary.up]
        omega
      · simp only [Selection.endY, SelectionBoundary.up]
        omega

/-- The same columns, `n` rows higher. -/
def IterationData.higher (r : IterationData) (n : Nat) : IterationData :=
  { r with y := r.y - n, yLimit := r.yLimit - n }

theorem Moved.from_start {n : Nat} {sel moved : Selection} (h : Moved n sel moved) :
    moved.start.from_ = sel.start.from_ := by
  unfold SelectionBoundary.from_
  rw [h.startX, h.startHalf]

theorem Moved.from_end {n : Nat} {sel moved : Selection} (h : Moved n sel moved) :
    moved.end_.from_ = sel.end_.from_ := by
  unfold SelectionBoundary.from_
  rw [h.endX, h.endHalf]

theorem Moved.limit_start {n : Nat} {sel moved : Selection} (h : Moved n sel moved) :
    moved.start.limit = sel.start.limit := by
  unfold SelectionBoundary.limit
  rw [h.startX, h.startHalf]

theorem Moved.limit_end {n : Nat} {sel moved : Selection} (h : Moved n sel moved) :
    moved.end_.limit = sel.end_.limit := by
  unfold SelectionBoundary.limit
  rw [h.endX, h.endHalf]

theorem Moved.rectangleColumns {n : Nat} {sel moved : Selection} (h : Moved n sel moved) :
    rectangleColumns moved = rectangleColumns sel := by
  unfold Smelly.rectangleColumns
  rw [h.startX, h.startHalf, h.endX, h.endHalf, h.leftToRight, h.from_start, h.from_end,
    h.limit_start, h.limit_end]

/-- A selection that has moved covers the same columns of rows that are higher by as much. -/
theorem selectionRows_moved {n : Nat} {sel moved : Selection} (h : Moved n sel moved)
    (columns : Nat) :
    selectionRows columns moved = (selectionRows columns sel).map (·.higher n) := by
  have top : min moved.startY moved.endY = min sel.startY sel.endY - n := by
    rw [h.startY, h.endY]
    omega
  have below : max moved.startY moved.endY + 1 = max sel.startY sel.endY + 1 - n := by
    rw [h.startY, h.endY]
    omega
  have same : moved.startY = moved.endY ↔ sel.startY = sel.endY := by
    omega
  have down : moved.startY < moved.endY ↔ sel.startY < sel.endY := by
    rw [h.startY, h.endY]
    omega
  unfold selectionRows
  simp only [top, below, same, down, h.startX, h.endX, h.startHalf, h.endHalf, h.rectangle,
    h.rectangleColumns]
  by_cases empty : sel.start.x = sel.end_.x ∧ sel.startY = sel.endY ∧
      sel.start.inLeftHalfOfCell = sel.end_.inLeftHalfOfCell
  · rw [if_pos empty, if_pos empty]
    rfl
  rw [if_neg empty, if_neg empty]
  by_cases rectangle : sel.rectangleSelect = true
  · rw [if_pos rectangle, if_pos rectangle, Option.map_map]
    rfl
  rw [if_neg rectangle, if_neg rectangle]
  by_cases oneRow : sel.startY = sel.endY
  · rw [if_pos oneRow, if_pos oneRow]
    by_cases oneCell : sel.start.x = sel.end_.x
    · rw [if_pos oneCell, if_pos oneCell]
      by_cases whole : sel.start.inLeftHalfOfCell = true ∧ ¬ sel.end_.inLeftHalfOfCell = true
      · rw [if_pos whole, if_pos whole]
        rfl
      · rw [if_neg whole, if_neg whole]
        rfl
    · rw [if_neg oneCell, if_neg oneCell]
      by_cases forwards : sel.start.x ≤ sel.end_.x
      · rw [if_pos forwards, if_pos forwards, h.from_start, h.limit_end]
        rfl
      · rw [if_neg forwards, if_neg forwards, h.from_end, h.limit_start]
        rfl
  · rw [if_neg oneRow, if_neg oneRow]
    by_cases downwards : sel.startY < sel.endY
    · rw [if_pos downwards, if_pos downwards]
      simp only [h.from_start, h.limit_end]
      rfl
    · rw [if_neg downwards, if_neg downwards]
      simp only [h.from_end, h.limit_start]
      rfl

/-- The selections of a screen that has scrolled. -/
theorem iterate_moved (sel : Selection) (n : Nat) : Moved n sel (indexSelectionUp^[n] sel) := by
  induction n with
  | zero => exact Moved.refl sel
  | succ n ih =>
    rw [Function.iterate_succ_apply']
    exact ih.trans (indexSelectionUp_moved _)

/-! ### Rows -/

/-- The rows that `range_line_` reads are those of the scrollback and the screen. -/
theorem rangeLine_allRows {s : Screen} (standing : s.OnMain) {y : Int}
    (from_ : -(s.historybuf.ring.count : Int) ≤ y) (inside : y < s.lines) :
    ∃ line, rangeLine s y = some line ∧
      s.allRows[(s.historybuf.ring.count + y).toNat]? = some line.cells ∧
      line.cells.length = s.columns := by
  have rows := standing.history.rowsLength
  unfold rangeLine Screen.allRows
  by_cases above : y < 0
  · have place : (s.historybuf.ring.count + y).toNat < s.historybuf.ring.rows.length := by omega
    have isRow := List.getElem?_eq_getElem place
    have slot : s.historybuf.ring.ring[(s.historybuf.ring.count + y).toNat]? =
        some s.historybuf.ring.rows[(s.historybuf.ring.count + y).toNat] := by
      rw [← isRow, HistoryBuf.rows, List.getElem?_take_of_lt (by omega)]
    obtain ⟨attrs, line⟩ := historybufInitSlot_spec standing.history slot
    have index : indexOf s.historybuf.ring (-(y + 1)).toNat =
        (s.historybuf.ring.startOfData + (s.historybuf.ring.count + y).toNat) %
          s.historybuf.ring.ynum := by
      unfold indexOf
      rw [if_neg (by omega), show s.historybuf.ring.count - 1 -
        min (s.historybuf.ring.count - 1) (-(y + 1)).toNat =
          (s.historybuf.ring.count + y).toNat by omega]
    rw [if_pos above, historybufInitLine, index, List.getElem?_append_left place]
    refine ⟨_, line, isRow, ?_⟩
    rw [← standing.historyX]
    exact standing.history.rowsRowLength (List.getElem_mem place)
  · have isLine : y.toNat < s.mainLinebuf.ynum := by
      rw [standing.linebufY]
      omega
    obtain ⟨row, isRow, length⟩ := standing.linebuf.exists_rows_getElem? isLine
    obtain ⟨attrs, line⟩ := linebufInitLine_spec standing.linebuf
      (by rw [standing.linebufX]; exact standing.columnsPositive) isLine isRow
    rw [if_neg above, Screen.linebuf, if_pos standing.onMain,
      List.getElem?_append_right (by omega), show (s.historybuf.ring.count + y).toNat -
        s.historybuf.ring.rows.length = y.toNat by omega]
    exact ⟨_, line, isRow, length.trans standing.linebufX⟩

/-! ### The text of a row -/

theorem xlimitForLine_le (row : Row) :
    ∃ limit, xlimitForLine row = some limit ∧ limit ≤ row.length := by
  obtain ⟨trimmed, trimmedEq, within⟩ :
      ∃ trimmed, trimmedLimit row row.length = some trimmed ∧ trimmed ≤ row.length := by
    refine ⟨_, trimmedLimit_spec row row.length (Nat.le_refl _), ?_⟩
    have shorter := (List.rdropWhile_prefix isBlankCell
      (l := (cellsText row).take row.length)).length_le
    rw [List.length_take] at shorter
    omega
  unfold xlimitForLine
  rw [trimmedEq, Option.bind_eq_bind, Option.bind_some]
  by_cases less : trimmed < row.length
  · rw [if_pos less]
    have inside : (if 0 < trimmed then trimmed - 1 else trimmed) < row.length := by
      split
      · omega
      · exact less
    obtain ⟨cell, cellEq⟩ : ∃ cell,
        row[if 0 < trimmed then trimmed - 1 else trimmed]? = some cell :=
      ⟨_, List.getElem?_eq_getElem inside⟩
    rw [cellEq]
    refine ⟨_, rfl, ?_⟩
    split
    · exact less
    · exact within
  · rw [if_neg less]
    exact ⟨_, rfl, within⟩

theorem skipTrailingWhitespace_le {row : Row} {limit : Nat} (within : limit ≤ row.length) :
    ∃ left, skipTrailingWhitespace row limit = some left ∧ left ≤ row.length := by
  induction limit with
  | zero => exact ⟨0, rfl, within⟩
  | succ limit ih =>
    unfold skipTrailingWhitespace
    rw [List.getElem?_eq_getElem within, Option.bind_eq_bind, Option.bind_some]
    split
    · exact ⟨_, rfl, within⟩
    · split
      · exact ih (Nat.le_of_succ_le within)
      · exact ⟨_, rfl, within⟩

variable (codepointForMark : UInt16 → UInt32)

theorem textOfRow_returns {row : Row} (some_ : row ≠ []) {range : XRange}
    (within : range.xLimit ≤ row.length) (insertNewline stripTrailingWhitespace : Bool) :
    ∃ text, textOfRow codepointForMark row range insertNewline stripTrailingWhitespace =
      some text := by
  have last : row.length - 1 < row.length := by
    have positive := List.length_pos_iff.2 some_
    omega
  have rest : ∀ {newLimit}, newLimit ≤ row.length →
      ∃ text, (if newLimit ≠ range.xLimit ∧ newLimit = 0 then some [Ctl.LF]
        else unicodeInRange codepointForMark row range.x newLimit true insertNewline false) =
          some text := by
    intro newLimit inside
    split
    · exact ⟨_, rfl⟩
    · unfold unicodeInRange
      rw [if_pos inside, List.getElem?_eq_getElem last]
      exact ⟨_, rfl⟩
  unfold textOfRow
  cases stripTrailingWhitespace with
  | false => exact rest within
  | true =>
    obtain ⟨left, leftEq, inside⟩ :=
      @skipTrailingWhitespace_le row (min range.xLimit row.length) (Nat.min_le_right _ _)
    have limit : limitWithoutTrailingWhitespace row range.xLimit = some left := leftEq
    rw [limit]
    exact rest inside

/-- Every row of the scrollback and the screen has a text. -/
theorem textRound_returns {s : Screen} (standing : s.OnMain) {y : Int}
    (from_ : -(s.historybuf.ring.count : Int) ≤ y) (inside : y < s.lines) (idata : IterationData)
    (limit : Int) (insertNewlines stripTrailingWhitespace : Bool) :
    ∃ text, textRound codepointForMark s idata limit y insertNewlines stripTrailingWhitespace =
      some text := by
  obtain ⟨line, lineEq, -, length⟩ := rangeLine_allRows standing from_ inside
  obtain ⟨xLimit, xLimitEq, within⟩ := xlimitForLine_le line.cells
  have some_ : line.cells ≠ [] := by
    have positive := standing.columnsPositive
    rintro none_
    rw [none_, List.length_nil] at length
    omega
  unfold textRound xrangeForIteration
  simp only [lineEq, xLimitEq, Option.bind_eq_bind, Option.bind_some]
  exact textOfRow_returns codepointForMark some_ (Nat.le_trans (Nat.min_le_right _ _) within) _ _

/-! ### Rows that have left -/

/-- How many rows from row `y` on have left the scrollback after `n` steps. -/
def evictedRows (capacity n : Nat) (y : Int) : Nat := ((n : Int) - capacity - y).toNat

/-- The columns of the row that is `k` rows below the first one. -/
def columnsOf (r : IterationData) (k : Nat) : XRange :=
  if k = 0 then r.first else if r.y + k = r.yLimit - 1 then r.last else r.body

/-- Nothing of a selection has left after `n` steps, or all of it, or the columns of the first row
are, as far as the row goes that is first then, the columns of that row. -/
def ColumnsKept (self : Screen) (sel : Selection) (n : Nat) : Prop :=
  ∀ r, selectionRows self.columns sel = some r →
    let evicted := evictedRows self.historybuf.ring.ynum n r.y
    evicted = 0 ∨ r.yLimit ≤ r.y + evicted ∨
      ∀ line limit, rangeLine self (r.y + evicted) = some line →
        xlimitForLine line.cells = some limit →
        r.first.x = (columnsOf r evicted).x ∧
          min r.first.xLimit limit = min (columnsOf r evicted).xLimit limit

/-- The rows of a selection are in the scrollback or on the screen. -/
def Selection.InRows (sel : Selection) (self : Screen) : Prop :=
  (-(self.historybuf.ring.count : Int) ≤ sel.startY ∧ sel.startY < self.lines) ∧
    -(self.historybuf.ring.count : Int) ≤ sel.endY ∧ sel.endY < self.lines

/-- What a selection covers begins and ends in its rows. -/
theorem selectionRows_inRows {sel : Selection} {self : Screen} (rows : sel.InRows self)
    {columns : Nat} {r : IterationData} (covers : selectionRows columns sel = some r) :
    r.y = min sel.startY sel.endY ∧ -(self.historybuf.ring.count : Int) ≤ r.y ∧
      r.y < r.yLimit ∧ r.yLimit ≤ self.lines := by
  obtain ⟨⟨startFrom, startInside⟩, endFrom, endInside⟩ := rows
  have bounds : r.y = min sel.startY sel.endY ∧ r.yLimit = max sel.startY sel.endY + 1 := by
    unfold selectionRows at covers
    split at covers
    · cases covers
    split at covers
    · obtain ⟨columns, -, rfl⟩ := Option.map_eq_some_iff.1 covers
      exact ⟨rfl, rfl⟩
    split at covers
    · split at covers
      · split at covers
        · rw [← Option.some.inj covers]
          exact ⟨rfl, rfl⟩
        · cases covers
      · split at covers
        · rw [← Option.some.inj covers]
          exact ⟨rfl, rfl⟩
        · rw [← Option.some.inj covers]
          exact ⟨rfl, rfl⟩
    · rw [← Option.some.inj covers]
      exact ⟨rfl, rfl⟩
  omega

/-! ### Any number of steps -/

/-- A main screen without margins after `n` steps. -/
structure Screen.ScrolledUp (before : Screen) (n : Nat) (after : Screen) : Prop where
  standing : after.OnMain
  columns : after.columns = before.columns
  lines : after.lines = before.lines
  count : after.historybuf.ring.count =
    min (before.historybuf.ring.count + n) before.historybuf.ring.ynum
  rows : after.allRows = (before.allRows ++ List.replicate n (blankRow before.columns)).drop
    (before.historybuf.ring.count + n - before.historybuf.ring.ynum)

theorem Screen.OnMain.tape_eq {s : Screen} (standing : s.OnMain)
    (noMargin : s.marginBottom + 1 = s.lines) : s.tape = s.allRows := by
  unfold Screen.tape Screen.allRows
  rw [List.take_of_length_le]
  rw [standing.linebuf.rowsLength, standing.linebufY, noMargin]

/-- The row that stood at `y` stands `n` rows higher after `n` steps, if it is still there. -/
theorem rangeLine_scrolled {before after : Screen} {n : Nat} (standing : before.OnMain)
    (scrolled : before.ScrolledUp n after) {y : Int}
    (from_ : -(before.historybuf.ring.count : Int) ≤ y) (inside : y < before.lines)
    (kept : -(after.historybuf.ring.count : Int) ≤ y - n) :
    ∃ line line', rangeLine before y = some line ∧ rangeLine after (y - n) = some line' ∧
      line'.cells = line.cells := by
  obtain ⟨line, lineEq, row, -⟩ := rangeLine_allRows standing from_ inside
  obtain ⟨line', lineEq', row', -⟩ :=
    rangeLine_allRows scrolled.standing kept (by rw [scrolled.lines]; omega)
  refine ⟨line, line', lineEq, lineEq', ?_⟩
  have count := scrolled.count
  have place : before.historybuf.ring.count + n - before.historybuf.ring.ynum +
      (after.historybuf.ring.count + (y - n)).toNat = (before.historybuf.ring.count + y).toNat := by
    omega
  have isRow := (List.getElem?_eq_some_iff.1 row).1
  rw [scrolled.rows, List.getElem?_drop, place, List.getElem?_append_left isRow, row] at row'
  exact (Option.some.inj row').symm

/-- The columns of a row, cut off where its text ends. -/
theorem xrangeForIteration_eq (idata : IterationData) (k : Nat) (row : Row) :
    xrangeForIteration idata (idata.y + k) row = (xlimitForLine row).map fun limit =>
      { x := (columnsOf idata k).x, xLimit := min (columnsOf idata k).xLimit limit } := by
  unfold xrangeForIteration columnsOf
  cases xlimitForLine row with
  | none => rfl
  | some limit =>
    by_cases first : k = 0
    · simp
    · rw [if_neg first]
      simp only [Option.bind_eq_bind, Option.bind_some, Option.map_some]
      rw [if_neg (show ¬ idata.y + (k : Int) = idata.y by omega)]

theorem iterationData_of_rows {self : SelectionScreen} {sel : Selection} {r : IterationData}
    (covers : selectionRows self.screen.columns sel = some r) (minY : Int) :
    iterationData self sel minY false =
      { r with y := max r.y minY, yLimit := max (max r.y minY) r.yLimit } := by
  unfold iterationData
  rw [covers]
  simp

/-- The text of rows that are all there. -/
theorem textForRange_rows {self : SelectionScreen} {sel : Selection} {idata : IterationData}
    (data : iterationData self sel (-(self.screen.historybuf.ring.count : Int)) false = idata)
    (ordered : idata.y ≤ idata.yLimit) (inside : idata.yLimit ≤ self.screen.lines)
    (insertNewlines stripTrailingWhitespace : Bool) :
    textForRange codepointForMark self sel insertNewlines stripTrailingWhitespace =
      (List.range (idata.yLimit - idata.y).toNat).mapM fun i : Nat =>
        textRound codepointForMark self.screen idata idata.yLimit (idata.y + i) insertNewlines
          stripTrailingWhitespace := by
  unfold textForRange
  rw [data]
  dsimp only
  rw [Int.min_eq_right inside, if_neg (by omega)]

/-- A row that is still there has the text it had, if its columns are still the same. -/
theorem textRound_scrolled {before after : Screen} {n : Nat} (standing : before.OnMain)
    (scrolled : before.ScrolledUp n after)
    {idata idata' : IterationData} {k k' : Nat}
    (from_ : -(before.historybuf.ring.count : Int) ≤ idata.y + k)
    (inside : idata.yLimit ≤ before.lines) (isRow : idata.y + k < idata.yLimit)
    (kept : -(after.historybuf.ring.count : Int) ≤ idata'.y + k')
    (here : idata'.y + k' = idata.y + k - n) (ends : idata'.yLimit = idata.yLimit - n)
    (columns : ∀ line limit, rangeLine before (idata.y + k) = some line →
      xlimitForLine line.cells = some limit →
      (columnsOf idata' k').x = (columnsOf idata k).x ∧
        min (columnsOf idata' k').xLimit limit = min (columnsOf idata k).xLimit limit)
    (insertNewlines stripTrailingWhitespace : Bool) :
    textRound codepointForMark after idata' idata'.yLimit (idata'.y + k') insertNewlines
        stripTrailingWhitespace =
      textRound codepointForMark before idata idata.yLimit (idata.y + k) insertNewlines
        stripTrailingWhitespace := by
  obtain ⟨line, line', lineEq, lineEq', same⟩ := rangeLine_scrolled standing scrolled
    from_ (by omega) (by omega : _ ≤ idata.y + k - n)
  rw [← here] at lineEq'
  have last : decide (idata'.y + (k' : Int) ≠ idata'.yLimit - 1) =
      decide (idata.y + (k : Int) ≠ idata.yLimit - 1) := by
    apply decide_eq_decide.2
    omega
  unfold textRound
  rw [lineEq, lineEq', last]
  simp only [Option.bind_eq_bind, Option.bind_some]
  rw [xrangeForIteration_eq, xrangeForIteration_eq, same]
  obtain ⟨limit, limitEq, -⟩ := xlimitForLine_le line.cells
  obtain ⟨x, xLimit⟩ := columns line limit lineEq limitEq
  rw [limitEq, Option.map_some, Option.map_some, x, xLimit]

/-- The columns of the rows that are left do not change, but for the row that is first then. -/
theorem columnsOf_left {r idata : IterationData} {e n : Nat} (top : idata.y = r.y + e - n)
    (ends : idata.yLimit = r.yLimit - n) (body : idata.body = r.body) (last : idata.last = r.last)
    {i : Nat} (below : i ≠ 0) : columnsOf idata i = columnsOf r (e + i) := by
  unfold columnsOf
  rw [if_neg below, if_neg (show e + i ≠ 0 by omega), top, ends, body, last]
  have same : r.y + e - n + i = r.yLimit - n - 1 ↔ r.y + ((e + i : Nat) : Int) = r.yLimit - 1 := by
    omega
  simp only [same]

theorem drop_map_range {α : Type} (f : Nat → α) (rows e : Nat) :
    ((List.range rows).map f).drop e = (List.range (rows - e)).map fun i => f (e + i) := by
  apply List.ext_getElem
  · simp
  · simp

/-- How many rows of a selection have left after `n` steps. -/
def evictedOf (self : Screen) (sel : Selection) (n : Nat) : Nat :=
  evictedRows self.historybuf.ring.ynum n (min sel.startY sel.endY)

/-- The text of a selection whose screen has scrolled is what is left of the text it had. -/
theorem textForRange_scrolled {before after : SelectionScreen} {n : Nat}
    (standing : before.screen.OnMain) (scrolled : before.screen.ScrolledUp n after.screen)
    {sel moved : Selection}
    (follows : Moved n sel moved) (inRows : sel.InRows before.screen)
    (insertNewlines stripTrailingWhitespace : Bool) :
    ∃ texts, textForRange codepointForMark before sel insertNewlines stripTrailingWhitespace =
        some texts ∧
      (ColumnsKept before.screen sel n →
        textForRange codepointForMark after moved insertNewlines stripTrailingWhitespace =
          some (texts.drop (evictedOf before.screen sel n))) := by
  have movedRows := selectionRows_moved follows before.screen.columns
  rw [← scrolled.columns] at movedRows
  cases covers : selectionRows before.screen.columns sel with
  | none =>
    rw [scrolled.columns, covers] at movedRows
    have emptyBefore : textForRange codepointForMark before sel insertNewlines
        stripTrailingWhitespace = some [] := by
      rw [@textForRange_rows codepointForMark before sel {} (by unfold iterationData; rw [covers])
        (Int.le_refl _) (by simp)]
      rfl
    refine ⟨[], emptyBefore, fun _ => ?_⟩
    rw [List.drop_nil, @textForRange_rows codepointForMark after moved {}
      (by unfold iterationData; rw [scrolled.columns, movedRows]; rfl) (Int.le_refl _) (by simp)]
    rfl
  | some r =>
    rw [scrolled.columns, covers] at movedRows
    obtain ⟨top, from_, ordered, inside⟩ := selectionRows_inRows inRows covers
    have count := scrolled.count
    have lines := scrolled.lines
    have dataBefore : iterationData before sel
        (-(before.screen.historybuf.ring.count : Int)) false = r := by
      rw [iterationData_of_rows covers, Int.max_eq_left from_,
        Int.max_eq_right (Int.le_of_lt ordered)]
    let rows := (r.yLimit - r.y).toNat
    let text := fun i : Nat => textRound codepointForMark before.screen r r.yLimit (r.y + i)
      insertNewlines stripTrailingWhitespace
    have answers : ∀ i, i < rows → text i = some ((text i).getD []) := by
      intro i isRow
      obtain ⟨t, tEq⟩ := textRound_returns codepointForMark standing
        (show -(before.screen.historybuf.ring.count : Int) ≤ r.y + i by omega) (by omega) r
        r.yLimit insertNewlines stripTrailingWhitespace
      rw [show text i = some t from tEq]
      rfl
    refine ⟨(List.range rows).map fun i => (text i).getD [], ?_, ?_⟩
    · rw [textForRange_rows codepointForMark dataBefore (Int.le_of_lt ordered) inside]
      exact mapM_of_some fun i mem => answers i (List.mem_range.1 mem)
    · intro kept
      have evicted : evictedOf before.screen sel n =
          evictedRows before.screen.historybuf.ring.ynum n r.y := by
        rw [evictedOf, top]
      have keptHere := kept r covers
      rw [← evicted] at keptHere
      unfold evictedRows at evicted
      generalize evictedOf before.screen sel n = e at evicted keptHere
      have dataAfter := iterationData_of_rows
        (show selectionRows after.screen.columns moved = some (r.higher n) by
          rw [scrolled.columns, movedRows]; rfl)
        (-(after.screen.historybuf.ring.count : Int))
      generalize idataEq : ({ r.higher n with
        y := max (r.higher n).y (-(after.screen.historybuf.ring.count : Int))
        yLimit := max (max (r.higher n).y (-(after.screen.historybuf.ring.count : Int)))
          (r.higher n).yLimit } : IterationData) = idata at dataAfter
      have higherTop : (r.higher n).y = r.y - n := rfl
      have higherEnd : (r.higher n).yLimit = r.yLimit - n := rfl
      have idataTop : idata.y = r.y + e - n := by
        rw [← idataEq]
        dsimp only
        omega
      have idataEnd : idata.yLimit = max (r.y + e - n) (r.yLimit - n) := by
        rw [← idataEq]
        dsimp only
        omega
      rw [textForRange_rows codepointForMark dataAfter (by omega) (by omega), drop_map_range]
      have count' : (idata.yLimit - idata.y).toNat = rows - e := by omega
      rw [count']
      apply mapM_of_some
      intro i mem
      have isRow := List.mem_range.1 mem
      rw [← answers (e + i) (by omega)]
      apply textRound_scrolled codepointForMark standing scrolled
      · omega
      · exact inside
      · omega
      · omega
      · omega
      · omega
      · intro line limit lineEq limitEq
        by_cases first : i = 0
        · subst first
          have idataFirst : columnsOf idata 0 = r.first := by
            rw [← idataEq]
            rfl
          rw [idataFirst]
          rcases keptHere with none_ | all | same
          · rw [none_]
            exact ⟨rfl, rfl⟩
          · omega
          · exact same line limit lineEq limitEq
        · have left := @columnsOf_left r idata e n (by omega) (by omega) (by rw [← idataEq]; rfl)
            (by rw [← idataEq]; rfl) i first
          rw [left]
          exact ⟨rfl, rfl⟩

theorem forUp_map {α : Type} (change : α → α) (lo n : Nat) (items : List α) :
    forUp lo n (fun _ items => some (items.map change)) items = some (items.map change^[n]) := by
  induction n generalizing lo items with
  | zero => simp
  | succ n ih =>
    rw [forUp_succ, Option.bind_eq_bind, Option.bind_some, ih, List.map_map,
      ← Function.iterate_succ]

/-- Scrolling a screen moves its selections along. -/
theorem scrollSelections_eq (lineAsAnsi : LineAsAnsi) (self : SelectionScreen) (n : Nat)
    {screen : Screen} (scrolls : screenScroll lineAsAnsi self.screen n = some screen) :
    scrollSelections lineAsAnsi self n =
      some { self with screen, selections := self.selections.map indexSelectionUp^[n] } := by
  apply forUp_pair
    (fun screen selections => ({ self with screen, selections } : SelectionScreen)) _ scrolls
    (forUp_map indexSelectionUp 0 n self.selections)
  intro i s t s' t' up moved
  unfold indexUpSelections
  rw [up, ← Option.some.inj moved]
  rfl

/-- In every run of a main screen that scrolls up as a whole, a finished selection yields what is
left of the text that it yielded, if none or all of its rows have left the scrollback, or the
columns of its first row are those of the row that is first then. -/
theorem selectionScrolling (lineAsAnsi : LineAsAnsi) (self : SelectionScreen)
    (standing : self.screen.OnMain) (noTop : self.screen.marginTop = 0)
    (noBottom : self.screen.marginBottom + 1 = self.screen.lines)
    (finished : ∀ sel ∈ self.selections, sel.InRows self.screen) (n : Nat) :
    ∃ after, scrollSelections lineAsAnsi self n = some after ∧
      ∀ (i : Nat) (sel : Selection), self.selections[i]? = some sel →
        ∃ moved, after.selections[i]? = some moved ∧
          ∀ insertNewlines stripTrailingWhitespace,
            ∃ texts, textForRange codepointForMark self sel insertNewlines
                stripTrailingWhitespace = some texts ∧
              (ColumnsKept self.screen sel n →
                textForRange codepointForMark after moved insertNewlines
                  stripTrailingWhitespace = some (texts.drop (evictedOf self.screen sel n))) := by
  obtain ⟨screen, scrolls, rolled⟩ := screenScroll_rolled lineAsAnsi standing noTop n
  have scrolled : self.screen.ScrolledUp n screen := by
    refine ⟨rolled.standing, rolled.columns, rolled.lines, rolled.count, ?_⟩
    rw [← standing.tape_eq noBottom, ← rolled.tape]
    exact (rolled.standing.tape_eq (by rw [rolled.marginBottom, rolled.lines, noBottom])).symm
  refine ⟨_, scrollSelections_eq lineAsAnsi self n scrolls, ?_⟩
  intro i sel found
  refine ⟨indexSelectionUp^[n] sel, ?_, ?_⟩
  · rw [List.getElem?_map, found]
    rfl
  · intro insertNewlines stripTrailingWhitespace
    exact textForRange_scrolled codepointForMark standing scrolled (iterate_moved sel n)
      (finished sel (List.mem_of_getElem? found)) insertNewlines stripTrailingWhitespace

/-- The rows of a rectangle all have the same columns. -/
theorem columnsKept_rectangle {self : Screen} {sel : Selection} (n : Nat)
    (rectangle : sel.rectangleSelect = true) : ColumnsKept self sel n := by
  intro r covers
  have same : r.body = r.first ∧ r.last = r.first := by
    unfold selectionRows at covers
    split at covers
    · cases covers
    · obtain ⟨columns, -, rfl⟩ := Option.map_eq_some_iff.1 covers
      exact ⟨rfl, rfl⟩
  refine .inr (.inr fun line limit _ _ => ?_)
  have columns : columnsOf r (evictedRows self.historybuf.ring.ynum n r.y) = r.first := by
    unfold columnsOf
    split
    · rfl
    · split
      · exact same.2
      · exact same.1
  rw [columns]
  exact ⟨rfl, rfl⟩

/-- A screen with two rows of text, and room for two rows in its scrollback. -/
def twoTextRows : Screen :=
  { newScreen 2 3 2 0 with
    mainLinebuf := { allocLinebuf 2 3 with
      cells := [[97, 98, 99], [100, 101, 102]].map (·.map fun ch => { cpu := { ch } }) } }

theorem twoTextRows_onMain : twoTextRows.OnMain where
  columnsPositive := by decide
  onMain := rfl
  linebuf := ⟨rfl, by decide, by decide, rfl, rfl⟩
  linebufX := rfl
  linebufY := rfl
  history := blankHistorybuf_wellFormed (by decide) (by decide)
  historyX := rfl
  margins := by decide
  bottom := by decide

/-- From the second column of the first row to the second column of the second one. -/
def twoRowSelection (rectangleSelect : Bool) : Selection :=
  { start := ⟨1, 0, true⟩
    end_ := ⟨1, 1, false⟩
    inputStart := ⟨1, 0, true⟩
    inputCurrent := ⟨1, 1, false⟩
    rectangleSelect
    initialExtentStart := ⟨1, 0, true⟩
    initialExtentEnd := ⟨1, 0, true⟩ }

theorem twoRowSelection_inRows (rectangleSelect : Bool) :
    (twoRowSelection rectangleSelect).InRows twoTextRows := by
  unfold Selection.InRows
  cases rectangleSelect with
  | false => decide
  | true => decide

/-- A rectangle of two rows is still right when the first of them has left the scrollback. -/
theorem selectionScrolling_rectangle :
    ∃ after moved, scrollSelections (fun _ a => ([], a))
        { screen := twoTextRows, selections := [twoRowSelection true] } 3 = some after ∧
      after.selections[0]? = some moved ∧
      textForRange (fun _ => 0) after moved false false = some [[101]] := by
  obtain ⟨after, run_, follows⟩ := selectionScrolling (fun _ => 0) (fun _ a => ([], a))
    { screen := twoTextRows, selections := [twoRowSelection true] } twoTextRows_onMain rfl rfl
    (by
      intro sel mem
      rw [List.mem_singleton.1 mem]
      exact twoRowSelection_inRows true) 3
  obtain ⟨moved, found, texts⟩ := follows 0 (twoRowSelection true) rfl
  obtain ⟨before, beforeEq, kept⟩ := texts false false
  have twoTexts : textForRange (fun _ => 0)
      { screen := twoTextRows, selections := [twoRowSelection true] } (twoRowSelection true)
      false false = some [[98], [101]] := by
    decide +kernel
  have same := Option.some.inj (beforeEq.symm.trans twoTexts)
  refine ⟨after, moved, run_, found, ?_⟩
  rw [kept (columnsKept_rectangle 3 rfl), same]
  decide

/-- When the first row of a selection has left the scrollback, its starting column is applied to the
second row, which had been selected from its beginning. -/
theorem selectionScrolling_column :
    (twoRowSelection false).InRows twoTextRows ∧
    ∃ after moved, scrollSelections (fun _ a => ([], a))
        { screen := twoTextRows, selections := [twoRowSelection false] } 3 = some after ∧
      after.selections[0]? = some moved ∧
      textForRange (fun _ => 0) { screen := twoTextRows, selections := [] } (twoRowSelection false)
        false false = some [[98, 99], [100, 101]] ∧
      evictedOf twoTextRows (twoRowSelection false) 3 = 1 ∧
      textForRange (fun _ => 0) after moved false false = some [[101, 102]] ∧
      ([[101, 102]] : List (List UInt32)) ≠ [[98, 99], [100, 101]].drop 1 := by
  refine ⟨twoRowSelection_inRows false, _, _, rfl, rfl, ?_⟩
  decide +kernel

end Smelly
