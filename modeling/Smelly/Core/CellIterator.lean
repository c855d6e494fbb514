/-
Module: Smelly.Core.CellIterator
Purpose: The cells of a text, one after the other in both directions.
Trusted boundary: human-reviewed model of tools/wcswidth/iter.go; a slice that is nil is `none`, and
  the two loops that end at the end of the text have a bound that they do not reach
-/
import Smelly.Core.WcWidthIterator

namespace Smelly

namespace Wcswidth

/-- `current_cell`. -/
structure CurrentCell where
  head : Nat := 0
  tail : Nat := 0
  width : Int := 0
deriving DecidableEq, Repr

/-- `forward_iterator`. -/
structure ForwardIterator where
  widthIter : WCWidthIterator := {}
  currentCell : CurrentCell := {}
  cellNum : Nat := 0
  pos : Nat := 0
deriving DecidableEq, Repr

/-- `reverse_iterator`. -/
structure ReverseIterator where
  cells : Option (List Bytes) := none
  pos : Int := 0
deriving DecidableEq, Repr

/-- `CellIterator`. -/
structure CellIterator where
  text : Bytes
  current : Bytes := []
  forwardIter : ForwardIterator := {}
  reverseIter : ReverseIterator := {}
deriving DecidableEq, Repr

/-- `Reset`.  It keeps the state in which a flag may be open. -/
def WCWidthIterator.reset (self : WCWidthIterator) : WCWidthIterator :=
  { parser := self.parser.resetState
    counts := { self.counts with prevCh := 0, prevWidth := 0, currentWidth := 0, runeCount := 0 } }

/-- `text[head:tail]`. -/
def slice (text : Bytes) (head tail : Nat) : Bytes := (text.drop head).take (tail - head)

namespace ForwardIterator

/-- `reset`. -/
def reset (self : ForwardIterator) : ForwardIterator :=
  { widthIter := self.widthIter.reset }

/-- The loop of `forward_one_rune`, for the bytes from `pos` on. -/
def forwardOneRuneLoop (t : WidthTables) (self : ForwardIterator) :
    Bytes → ForwardIterator × Bool
  | [] => (self, false)
  | b :: rest =>
    let runeCountBefore := self.widthIter.counts.runeCount
    let self :=
      { self with widthIter := self.widthIter.parseBytes t [b], pos := self.pos + 1 }
    if self.widthIter.counts.runeCount ≠ runeCountBefore then (self, true)
    else self.forwardOneRuneLoop t rest

/-- `forward_one_rune`. -/
def forwardOneRune (t : WidthTables) (text : Bytes) (self : ForwardIterator) :
    ForwardIterator × Bool :=
  self.forwardOneRuneLoop t (text.drop self.pos)

/-- What `Forward` does behind its loop. -/
def lastCell (text : Bytes) (self : ForwardIterator) : ForwardIterator × Option Bytes :=
  if self.currentCell.tail > self.currentCell.head then
    ({ self with
        currentCell := { head := self.pos, tail := self.pos, width := 0 }
        cellNum := self.cellNum + 1 },
      some (slice text self.currentCell.head self.currentCell.tail))
  else (self, none)

/-- The loop of `Forward` while the cells are not known, and what it does behind the loop: the next
cell, if there is one.  The first argument bounds the rounds. -/
def nextCell (t : WidthTables) (text : Bytes) : Nat → ForwardIterator →
    ForwardIterator × Option Bytes
  | 0, self => self.lastCell text
  | rounds + 1, self =>
    let widthBefore := self.widthIter.counts.currentWidth
    let posBefore := self.pos
    match self.forwardOneRune t text with
    | (self, false) => self.lastCell text
    | (self, true) =>
      let changeInWidth := self.widthIter.counts.currentWidth - widthBefore
      let cell : CurrentCell := { self.currentCell with tail := self.pos }
      if cell.width > 0 ∧ changeInWidth > 0 then
        ({ self with
            currentCell := { cell with width := changeInWidth, head := posBefore }
            cellNum := self.cellNum + 1 },
          some (slice text cell.head posBefore))
      else
        nextCell t text rounds
          { self with currentCell := { cell with width := cell.width + changeInWidth } }

end ForwardIterator

namespace CellIterator

/-- `NewCellIterator`. -/
def new (text : Bytes) : CellIterator := { text := text }

/-- `GotoStart`. -/
def gotoStart (self : CellIterator) : CellIterator :=
  { self with
    forwardIter := self.forwardIter.reset
    reverseIter := { self.reverseIter with pos := -1 }
    current := [] }

/-- `GotoEnd`. -/
def gotoEnd (self : CellIterator) : CellIterator :=
  { self with
    current := []
    reverseIter := { self.reverseIter with pos := (self.reverseIter.cells.getD []).length }
    forwardIter :=
      { self.forwardIter with pos := self.text.length, cellNum := self.text.length + 1 } }

/-- `Forward`. -/
def forward (t : WidthTables) (self : CellIterator) : CellIterator × Bool :=
  match self.reverseIter.cells with
  | some cells =>
    let pos :=
      if self.reverseIter.pos < cells.length then self.reverseIter.pos + 1
      else self.reverseIter.pos
    let self := { self with reverseIter := { self.reverseIter with pos := pos } }
    if pos ≥ cells.length then ({ self with current := [] }, false)
    else ({ self with current := cells.getD pos.toNat [] }, true)
  | none =>
    match self.forwardIter.nextCell t self.text (self.text.length + 1) with
    | (fi, some cell) => ({ self with forwardIter := fi, current := cell }, true)
    | (fi, none) => ({ self with forwardIter := fi, current := [] }, false)

/-- The loop of `Backward` that collects the cells.  The first argument bounds the rounds. -/
def collectCells (t : WidthTables) : Nat → CellIterator → List Bytes → CellIterator × List Bytes
  | 0, self, cells => (self, cells)
  | rounds + 1, self, cells =>
    match self.forward t with
    | (self, true) => collectCells t rounds self (cells ++ [self.current])
    | (self, false) => (self, cells)

/-- The beginning of `Backward`: the cells are collected once. -/
def ensureCells (t : WidthTables) (self : CellIterator) : CellIterator × List Bytes :=
  match self.reverseIter.cells with
  | some cells => (self, cells)
  | none =>
    let currentCellNum := self.forwardIter.cellNum
    let (self, cells) := self.gotoStart.collectCells t (self.text.length + 1) []
    ({ self with
        reverseIter :=
          { cells := some cells
            pos := min (max (-1) ((currentCellNum : Int) - 1)) cells.length } },
      cells)

/-- `Backward`. -/
def backward (t : WidthTables) (self : CellIterator) : CellIterator × Bool :=
  let (self, cells) := self.ensureCells t
  let pos := if self.reverseIter.pos > -1 then self.reverseIter.pos - 1 else self.reverseIter.pos
  let self := { self with reverseIter := { self.reverseIter with pos := pos } }
  if pos < 0 then ({ self with current := [] }, false)
  else ({ self with current := cells.getD pos.toNat [] }, true)

end CellIterator

end Wcswidth

end Smelly
