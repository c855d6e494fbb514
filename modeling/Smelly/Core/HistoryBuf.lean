/-
Module: Smelly.Core.HistoryBuf
Purpose: The scrollback ring of `history.c`, without a pager history.  The segments of the
  source are allocated zero-filled when a line of theirs is first touched, so a slot that was
  never touched reads as blank cells.
Trusted boundary: human-reviewed model of smelly/history.c
-/
import Smelly.Core.Line

namespace Smelly

open Checked

/-- `HistoryBuf`: `count` lines from slot `startOfData` on, oldest first. -/
structure HistoryBuf where
  xnum : Nat
  ynum : Nat
  cells : List Row
  lineAttrs : List LineAttrs
  startOfData : Nat := 0
  count : Nat := 0
deriving DecidableEq, Repr, Inhabited

/-- `SEGMENT_SIZE`. -/
def segmentSize : Nat := 2048

/-- A zero-filled ring. -/
def blankHistorybuf (lines columns : Nat) : HistoryBuf :=
  { xnum := columns
    ynum := lines
    cells := List.replicate lines (blankRow columns)
    lineAttrs := List.replicate lines {} }

/-- `create_historybuf`, and with it `alloc_historybuf`. -/
def createHistorybuf (lines columns : Nat) : Option HistoryBuf :=
  if columns = 0 ∨ lines = 0 then none else some (blankHistorybuf lines columns)

/-- `index_of`: line number 0 is the line added last. -/
def indexOf (self : HistoryBuf) (lnum : Nat) : Nat :=
  if self.count = 0 then 0
  else (self.startOfData + (self.count - 1 - min (self.count - 1) lnum)) % self.ynum

/-- `gpu_lineptr(self, num)[xnum - 1].attrs.next_char_was_wrapped`. -/
def HistoryBuf.lastCellWrapped (self : HistoryBuf) (num : Nat) : Option Bool := do
  let row ← self.cells[num]?
  let last ← row[self.xnum - 1]?
  some last.gpu.attrs.nextCharWasWrapped

/-- `init_line` of `history.c`. -/
def historybufInitSlot (self : HistoryBuf) (num : Nat) : Option Line := do
  let row ← self.cells[num]?
  let attrs ← self.lineAttrs[num]?
  let isContinued ← if 0 < num then self.lastCellWrapped (num - 1) else some false
  some { cells := row, attrs := { attrs with isContinued := isContinued } }

/-- `historybuf_init_line`. -/
def historybufInitLine (self : HistoryBuf) (lnum : Nat) : Option Line :=
  historybufInitSlot self (indexOf self lnum)

/-- `history_buf_endswith_wrap`. -/
def historyBufEndswithWrap (self : HistoryBuf) : Option Bool :=
  self.lastCellWrapped (indexOf self 0)

/-- `historybuf_clear`: the first segment is kept as it is. -/
def historybufClear (self : HistoryBuf) : HistoryBuf :=
  { self with
    cells := self.cells.take segmentSize ++
      List.replicate (self.ynum - segmentSize) (blankRow self.xnum)
    lineAttrs := self.lineAttrs.take segmentSize ++ List.replicate (self.ynum - segmentSize) {}
    startOfData := 0
    count := 0 }

/-- `historybuf_push`: the slot of the new line, which still holds what was last stored in it. -/
def historybufPush (self : HistoryBuf) : HistoryBuf × Nat :=
  let idx := (self.startOfData + self.count) % self.ynum
  if self.count = self.ynum then
    ({ self with startOfData := (self.startOfData + 1) % self.ynum }, idx)
  else ({ self with count := self.count + 1 }, idx)

/-- `*attrptr(self, idx) = attrs`. -/
def HistoryBuf.setAttrs (self : HistoryBuf) (idx : Nat) (attrs : LineAttrs) :
    Option HistoryBuf := do
  let lineAttrs ← setAt self.lineAttrs idx attrs
  some { self with lineAttrs := lineAttrs }

/-- Run a line operation on the row in slot `idx`. -/
def HistoryBuf.onSlot (self : HistoryBuf) (idx : Nat) (operation : Row → Option Row) :
    Option HistoryBuf := do
  let row ← self.cells[idx]?
  let row ← operation row
  let cells ← setAt self.cells idx row
  some { self with cells := cells }

/-- `historybuf_add_line`. -/
def historybufAddLine (self : HistoryBuf) (line : Line) : Option HistoryBuf := do
  let (pushed, idx) := historybufPush self
  let copied ← pushed.onSlot idx fun row => some (copyLine line.cells row)
  copied.setAttrs idx line.attrs

/-- `historybuf_pop_line`: `some none` when the ring is empty. -/
def historybufPopLine (self : HistoryBuf) : Option (Option (HistoryBuf × Line)) :=
  if self.count = 0 then some none
  else do
    let line ← historybufInitSlot self ((self.startOfData + self.count - 1) % self.ynum)
    some (some ({ self with count := self.count - 1 }, line))

/-- `history_buf_set_last_char_as_continuation`. -/
def historyBufSetLastCharAsContinuation (self : HistoryBuf) (y : Nat) (wrapped : Bool) :
    Option HistoryBuf :=
  if 0 < self.count then
    self.onSlot (indexOf self y) fun row => modifyAt row (self.xnum - 1) (·.setWrapped wrapped)
  else some self

end Smelly
