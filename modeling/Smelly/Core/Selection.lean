/-
Module: Smelly.Core.Selection
Purpose: The selections of a screen: how they move along when the screen scrolls, which columns of
  which rows they cover, and the text they are copied as.
Trusted boundary: human-reviewed model of index_selection, iteration_data, xrange_for_iteration
  and text_for_range in smelly/screen.c; rows and numbers of scrolled lines fit in an int, and
  `codepoint_for_mark` reads a generated table and is a parameter
-/
import Smelly.Core.LineUnicode
import Smelly.Core.Screen

namespace Smelly

open Checked

/-- `SelectionBoundary`. -/
structure SelectionBoundary where
  x : Nat
  y : Nat
  inLeftHalfOfCell : Bool
deriving DecidableEq, Repr

/-- `XRange`. -/
structure XRange where
  x : Nat := 0
  xLimit : Nat := 0
deriving DecidableEq, Repr

/-- `IterationData`. -/
structure IterationData where
  y : Int := 0
  yLimit : Int := 0
  first : XRange := {}
  body : XRange := {}
  last : XRange := {}
deriving DecidableEq, Repr

/-- `Selection`. -/
structure Selection where
  start : SelectionBoundary
  end_ : SelectionBoundary
  inputStart : SelectionBoundary
  inputCurrent : SelectionBoundary
  startScrolledBy : Nat := 0
  endScrolledBy : Nat := 0
  rectangleSelect : Bool := false
  initialExtentStart : SelectionBoundary
  initialExtentEnd : SelectionBoundary
deriving DecidableEq, Repr

/-! ### Scrolling -/

/-- `if (b.y) b.y--`. -/
def SelectionBoundary.up (b : SelectionBoundary) : SelectionBoundary := { b with y := b.y - 1 }

/-- The body of the loop of `index_selection` when the screen scrolls up. -/
def indexSelectionUp (s : Selection) : Selection :=
  let s :=
    if s.start.y = 0 then { s with startScrolledBy := s.startScrolledBy + 1 }
    else { s with
      start := s.start.up
      inputStart := s.inputStart.up
      inputCurrent := s.inputCurrent.up
      initialExtentStart := s.initialExtentStart.up
      initialExtentEnd := s.initialExtentEnd.up }
  if s.end_.y = 0 then { s with endScrolledBy := s.endScrolledBy + 1 }
  else { s with end_ := s.end_.up }

/-- A screen with its selections. -/
structure SelectionScreen where
  screen : Screen
  selections : List Selection
  scrolledBy : Nat := 0

/-- `INDEX_UP`, which ends with `index_selection`. -/
def indexUpSelections (lineAsAnsi : LineAsAnsi) (self : SelectionScreen) (top bottom : Nat) :
    Option SelectionScreen := do
  let screen ← indexUp lineAsAnsi self.screen top bottom
  some { self with screen, selections := self.selections.map indexSelectionUp }

/-- `screen_scroll`. -/
def scrollSelections (lineAsAnsi : LineAsAnsi) (self : SelectionScreen) (count : Nat) :
    Option SelectionScreen :=
  forUp 0 count (fun _ s =>
    indexUpSelections lineAsAnsi s self.screen.marginTop self.screen.marginBottom) self

/-! ### Rows and columns -/

/-- `(int)start->y - sel->start_scrolled_by`. -/
def Selection.startY (sel : Selection) : Int := (sel.start.y : Int) - sel.startScrolledBy

/-- `(int)end->y - sel->end_scrolled_by`. -/
def Selection.endY (sel : Selection) : Int := (sel.end_.y : Int) - sel.endScrolledBy

/-- `selection_is_left_to_right`. -/
def selectionIsLeftToRight (self : Selection) : Bool :=
  self.inputStart.x < self.inputCurrent.x ∨
    (self.inputStart.x = self.inputCurrent.x ∧ self.inputStart.inLeftHalfOfCell)

/-- `b->x + (b->in_left_half_of_cell ? 0 : 1)`. -/
def SelectionBoundary.from_ (b : SelectionBoundary) : Nat :=
  b.x + if b.inLeftHalfOfCell then 0 else 1

/-- `1 + b->x + (b->in_left_half_of_cell ? -1 : 0)`. -/
def SelectionBoundary.limit (b : SelectionBoundary) : Nat :=
  if b.inLeftHalfOfCell then b.x else 1 + b.x

/-- The columns of a rectangle; `none` is the early return for an empty one. -/
def rectangleColumns (sel : Selection) : Option XRange :=
  if sel.start.x = sel.end_.x ∧ (¬ sel.start.inLeftHalfOfCell ∨ sel.end_.inLeftHalfOfCell) then none
  else if sel.start.x = sel.end_.x then some { x := sel.start.x, xLimit := sel.start.x + 1 }
  else if selectionIsLeftToRight sel then
    some { x := sel.start.from_, xLimit := sel.end_.limit }
  else some { x := sel.end_.from_, xLimit := sel.start.limit }

/-- What `iteration_data` computes before the rows are clamped; `none` is one of its early
returns. -/
def selectionRows (columns : Nat) (sel : Selection) : Option IterationData :=
  let y := min sel.startY sel.endY
  let yLimit := max sel.startY sel.endY + 1
  if sel.start.x = sel.end_.x ∧ sel.startY = sel.endY ∧
      sel.start.inLeftHalfOfCell = sel.end_.inLeftHalfOfCell then none
  else if sel.rectangleSelect then
    (rectangleColumns sel).map fun r => { y, yLimit, first := r, body := r, last := r }
  else if sel.startY = sel.endY then
    if sel.start.x = sel.end_.x then
      if sel.start.inLeftHalfOfCell ∧ ¬ sel.end_.inLeftHalfOfCell then
        let cell : XRange := { x := sel.start.x, xLimit := sel.start.x + 1 }
        some { y, yLimit, first := cell, body := cell, last := cell }
      else none
    else if sel.start.x ≤ sel.end_.x then
      some { y, yLimit, first := { x := sel.start.from_, xLimit := sel.end_.limit } }
    else some { y, yLimit, first := { x := sel.end_.from_, xLimit := sel.start.limit } }
  else
    -- downwards or upwards
    let (upper, lower) :=
      if sel.startY < sel.endY then (sel.start, sel.end_) else (sel.end_, sel.start)
    some { y, yLimit, first := { x := upper.from_, xLimit := columns },
           body := { x := 0, xLimit := columns }, last := { x := 0, xLimit := lower.limit } }

/-- `iteration_data`. -/
def iterationData (self : SelectionScreen) (sel : Selection) (minY : Int) (addScrolledBy : Bool) :
    IterationData :=
  match selectionRows self.screen.columns sel with
  | none => {}
  | some ans =>
    let shift : Int := if addScrolledBy then self.scrolledBy else 0
    let y := max (ans.y + shift) minY
    { ans with y, yLimit := max y (ans.yLimit + shift) }

/-- `xrange_for_iteration`. -/
def xrangeForIteration (idata : IterationData) (y : Int) (row : Row) : Option XRange := do
  let limit ← xlimitForLine row
  let range :=
    if y = idata.y then idata.first
    else if y = idata.yLimit - 1 then idata.last
    else idata.body
  some { range with xLimit := min range.xLimit limit }

/-! ### Text -/

/-- `range_line_`. -/
def rangeLine (self : Screen) (y : Int) : Option Line :=
  if y < 0 then historybufInitLine self.historybuf.ring (-(y + 1)).toNat
  else linebufInitLine self.linebuf y.toNat

/-- The loop of `limit_without_trailing_whitespace`. -/
def skipTrailingWhitespace (row : Row) : (limit : Nat) → Option Nat
  | 0 => some 0
  | limit + 1 => do
      let cell ← row[limit]?
      if getElem cell.cpu.ccIdx 0 firstSlot ≠ 0 then some (limit + 1)
      else if cell.ch = ord ' ' ∨ cell.ch = Ctl.HT ∨ cell.ch = Ctl.LF ∨ cell.ch = Ctl.CR ∨
          cell.ch = 0 then
        skipTrailingWhitespace row limit
      else some (limit + 1)

/-- `limit_without_trailing_whitespace`. -/
def limitWithoutTrailingWhitespace (row : Row) (limit : Nat) : Option Nat :=
  skipTrailingWhitespace row (min limit row.length)

section

variable (codepointForMark : UInt16 → UInt32)

/-- The text of one row in `text_for_range`. -/
def textOfRow (row : Row) (range : XRange) (insertNewline stripTrailingWhitespace : Bool) :
    Option (List UInt32) := do
  let newLimit ←
    if stripTrailingWhitespace then limitWithoutTrailingWhitespace row range.xLimit
    else some range.xLimit
  if newLimit ≠ range.xLimit ∧ newLimit = 0 then some [Ctl.LF]
  else unicodeInRange codepointForMark row range.x newLimit true insertNewline false

/-- One round of the loop of `text_for_range`. -/
def textRound (self : Screen) (idata : IterationData) (limit y : Int)
    (insertNewlines stripTrailingWhitespace : Bool) : Option (List UInt32) := do
  let line ← rangeLine self y
  let range ← xrangeForIteration idata y line.cells
  textOfRow codepointForMark line.cells range (insertNewlines && decide (y ≠ limit - 1))
    stripTrailingWhitespace

/-- `text_for_range`; a tuple of negative length cannot be made. -/
def textForRange (self : SelectionScreen) (sel : Selection)
    (insertNewlines stripTrailingWhitespace : Bool) : Option (List (List UInt32)) :=
  let idata := iterationData self sel (-(self.screen.historybuf.ring.count : Int)) false
  let limit := min (self.screen.lines : Int) idata.yLimit
  if limit < idata.y then none
  else (List.range (limit - idata.y).toNat).mapM fun i : Nat =>
    textRound codepointForMark self.screen idata limit (idata.y + i) insertNewlines
      stripTrailingWhitespace

end

end Smelly
