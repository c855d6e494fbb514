/-
Module: Smelly.Core.Line
Purpose: The single-line operations of `line.c` and `lineops.h` over a row of cells.  An access
  to a column the row does not have is `none`.
Trusted boundary: human-reviewed model of smelly/line.c and smelly/lineops.h
-/
import Smelly.Core.Cell
import Smelly.Lib.Checked

namespace Smelly

open Checked

/-- The cells of one line, leftmost first. -/
abbrev Row := List Cell

/-- `Line`: a row together with the attributes `linebuf_init_line` gives it.  `xnum` is the
length of the row. -/
structure Line where
  cells : Row := []
  attrs : LineAttrs := {}
deriving DecidableEq, Repr, Inhabited

/-- A row of `xnum` cells as `calloc` and `zero_at_ptr_count` leave it. -/
def blankRow (xnum : Nat) : Row := List.replicate xnum Cell.zero

/-- `copy_line`: as many cells are copied as both lines have. -/
def copyLine (src dest : Row) : Row := src.take dest.length ++ dest.drop src.length

/-- `clear_chars_in_line`: the caller has zeroed the cells. -/
def clearCharsInLine (row : Row) (ch : UInt32) : Row :=
  if ch = 0 then row
  else row.map fun cell =>
    { cell with
      cpu := { cell.cpu with ch := ch, hyperlinkId := 0 }
      gpu := { cell.gpu with attrs := { width := 1 } } }

/-- `line_set_char` with a cursor. -/
def lineSetChar (row : Row) (at_ : Nat) (ch : UInt32) (width : Nat) (cursor : Cursor)
    (hyperlinkId : UInt16) : Option Row :=
  modifyAt row at_ fun cell =>
    { cpu := { ch := ch, hyperlinkId := hyperlinkId, ccIdx := Vector.replicate 3 0 }
      gpu := { cell.gpu with
        attrs := cursorToAttrs cursor width
        fg := cursor.fg
        bg := cursor.bg
        decorationFg := cursor.decorationFg } }

/-- One round of `line_clear_text`. -/
def clearTextCell (ch : UInt32) (cell : Cell) : Cell :=
  { cpu := { ch := ch, hyperlinkId := 0, ccIdx := Vector.replicate 3 0 }
    gpu := { cell.gpu with attrs := { cell.gpu.attrs with width := if ch = 0 then 0 else 1 } } }

/-- `line_clear_text`: the loop stops at the end of the line or after `num` cells. -/
def lineClearText (row : Row) (at_ num : Nat) (ch : UInt32) : Option Row :=
  forUp at_ (min row.length (at_ + num) - at_) (fun i r => modifyAt r i (clearTextCell ch)) row

/-- One round of `line_apply_cursor` with `clear_char` set. -/
def applyCursorCell (cursor : Cursor) (cell : Cell) : Cell :=
  { cpu := { ch := blankChar, hyperlinkId := 0, ccIdx := Vector.replicate 3 0 }
    gpu := { clearSpritePosition cell.gpu with
      attrs := cursorToAttrs cursor 0
      fg := cursor.fg
      bg := cursor.bg
      decorationFg := cursor.decorationFg } }

/-- `line_apply_cursor` with `clear_char` set, as every caller in `screen.c` has it. -/
def lineApplyCursor (row : Row) (cursor : Cursor) (at_ num : Nat) : Option Row :=
  forUp at_ (min row.length (at_ + num) - at_)
    (fun i r => modifyAt r i (applyCursorCell cursor)) row

/-- The cell a wide character that lost one half is replaced by. -/
def splitWideCell (cell : Cell) : Cell :=
  { cpu := { cell.cpu with ch := blankChar, hyperlinkId := 0 }
    gpu := { clearSpritePosition cell.gpu with attrs := {} } }

/-- `line_right_shift`: cells are copied from the right edge down to `at + num`. -/
def lineRightShift (row : Row) (at_ num : Nat) : Option Row := do
  let shifted ← forDown (at_ + num) (row.length - (at_ + num)) (fun i r => moveAt r i (i - num)) row
  let last ← shifted[row.length - 1]?
  if last.gpu.attrs.width ≠ 1 then modifyAt shifted (row.length - 1) splitWideCell
  else some shifted

/-- `left_shift_line`. -/
def leftShiftLine (row : Row) (at_ num : Nat) : Option Row := do
  let shifted ← forUp at_ (row.length - num - at_) (fun i r => moveAt r i (i + num)) row
  if at_ < row.length then
    let first ← shifted[at_]?
    if first.gpu.attrs.width ≠ 1 then modifyAt shifted at_ splitWideCell else some shifted
  else some shifted

/-- The loop over `cc_idx` of `line_add_combining_char`: the first free slot takes the mark, and
when there is none the last slot is overwritten. -/
def pushMark (ccIdx : Vector UInt16 3) (mark : UInt16) : Vector UInt16 3 :=
  if ccIdx[0] = 0 then ccIdx.set 0 mark
  else if ccIdx[1] = 0 then ccIdx.set 1 mark
  else ccIdx.set 2 mark

/-- `line_add_combining_char`; the table lookup `mark_for_codepoint` has been made by the
caller. -/
def lineAddCombiningChar (row : Row) (mark : UInt16) (x : Nat) : Option Row := do
  let cell ← row[x]?
  let addTo (index : Nat) : Option Row :=
    modifyAt row index fun c => { c with cpu := { c.cpu with ccIdx := pushMark c.cpu.ccIdx mark } }
  if cell.cpu.ch = 0 then
    if 0 < x then
      let before ← row[x - 1]?
      if before.gpu.attrs.width = 2 ∧ before.cpu.ch ≠ 0 then addTo (x - 1) else some row
    else some row
  else addTo x

end Smelly
