/-
Module: Smelly.Core.LineBuf
Purpose: The line buffer of `line-buf.c`: rows stored behind the permutation `line_map`, with
  their attributes in a parallel array.
Trusted boundary: human-reviewed model of smelly/line-buf.c
-/
import Smelly.Core.Line

namespace Smelly

open Checked

/-- `LineBuf`.  `cells` holds the physical rows of `cpu_cell_buf` and `gpu_cell_buf`; the row
shown at screen line `y` is `cells[lineMap[y]]`. -/
structure LineBuf where
  xnum : Nat
  ynum : Nat
  cells : List Row
  lineMap : List Nat
  scratch : List Nat
  lineAttrs : List LineAttrs
deriving DecidableEq, Repr, Inhabited

/-- `alloc_linebuf`. -/
def allocLinebuf (lines columns : Nat) : LineBuf :=
  { xnum := columns
    ynum := lines
    cells := List.replicate lines (blankRow columns)
    lineMap := List.range lines
    scratch := List.replicate lines 0
    lineAttrs := List.replicate lines {} }

/-- `linebuf_clear`. -/
def linebufClear (self : LineBuf) (ch : UInt32) : LineBuf :=
  { self with
    cells := List.replicate self.ynum (clearCharsInLine (blankRow self.xnum) ch)
    lineMap := List.range self.ynum
    lineAttrs := List.replicate self.ynum
      (if ch = 0 then {} else { hasDirtyText := true }) }

/-- The row behind `line_map[y]`. -/
def LineBuf.row (self : LineBuf) (y : Nat) : Option Row := do
  let physical ← self.lineMap[y]?
  self.cells[physical]?

/-- Store a row behind `line_map[y]`. -/
def LineBuf.setRow (self : LineBuf) (y : Nat) (row : Row) : Option LineBuf := do
  let physical ← self.lineMap[y]?
  let cells ← setAt self.cells physical row
  some { self with cells := cells }

/-- Run a line operation on the row `linebuf_init_line` has pointed `self->line` at. -/
def LineBuf.onRow (self : LineBuf) (y : Nat) (operation : Row → Option Row) : Option LineBuf := do
  let row ← self.row y
  let row ← operation row
  self.setRow y row

/-- `gpu_lineptr(self, line_map[y])[xnum - 1].attrs.next_char_was_wrapped`. -/
def LineBuf.lastCellWrapped (self : LineBuf) (y : Nat) : Option Bool := do
  let row ← self.row y
  let last ← row[self.xnum - 1]?
  some last.gpu.attrs.nextCharWasWrapped

/-- `linebuf_init_line`: a line's `is_continued` is read off the last cell of the line above. -/
def linebufInitLine (self : LineBuf) (idx : Nat) : Option Line := do
  let attrs ← self.lineAttrs[idx]?
  let isContinued ← if 0 < idx then self.lastCellWrapped (idx - 1) else some false
  let row ← self.row idx
  some { cells := row, attrs := { attrs with isContinued := isContinued } }

/-- `linebuf_mark_line_dirty`. -/
def linebufMarkLineDirty (self : LineBuf) (y : Nat) : Option LineBuf := do
  let attrs ← modifyAt self.lineAttrs y fun a => { a with hasDirtyText := true }
  some { self with lineAttrs := attrs }

/-- `linebuf_clear_attrs_and_dirty`. -/
def linebufClearAttrsAndDirty (self : LineBuf) (y : Nat) : Option LineBuf := do
  let attrs ← setAt self.lineAttrs y { hasDirtyText := true }
  some { self with lineAttrs := attrs }

/-- `linebuf_set_last_char_as_continuation`. -/
def linebufSetLastCharAsContinuation (self : LineBuf) (y : Nat) (continued : Bool) :
    Option LineBuf :=
  if y < self.ynum then
    self.onRow y fun row => modifyAt row (self.xnum - 1) (·.setWrapped continued)
  else some self

/-- `linebuf_char_width_at`. -/
def linebufCharWidthAt (self : LineBuf) (x y : Nat) : Option Nat := do
  let row ← self.row y
  let cell ← row[x]?
  some cell.gpu.attrs.width

/-- `linebuf_clear_line`. -/
def linebufClearLine (self : LineBuf) (y : Nat) (clearAttrs : Bool) : Option LineBuf := do
  let cleared ← self.onRow y fun _ => some (blankRow self.xnum)
  if clearAttrs then
    let attrs ← setAt cleared.lineAttrs y {}
    some { cleared with lineAttrs := attrs }
  else some cleared

/-- The loop body `line_map[i] = line_map[j]; line_attrs[i] = line_attrs[j]`. -/
def LineBuf.moveLine (self : LineBuf) (target source : Nat) : Option LineBuf := do
  let map ← moveAt self.lineMap target source
  let attrs ← moveAt self.lineAttrs target source
  some { self with lineMap := map, lineAttrs := attrs }

/-- `line_map[y] = physical; line_attrs[y] = attrs`. -/
def LineBuf.placeLine (self : LineBuf) (y physical : Nat) (attrs : LineAttrs) :
    Option LineBuf := do
  let map ← setAt self.lineMap y physical
  let attrs ← setAt self.lineAttrs y attrs
  some { self with lineMap := map, lineAttrs := attrs }

/-- `linebuf_index`. -/
def linebufIndex (self : LineBuf) (top bottom : Nat) : Option LineBuf :=
  if self.ynum - 1 ≤ top ∨ self.ynum ≤ bottom ∨ bottom ≤ top then some self
  else do
    let oldTop ← self.lineMap[top]?
    let oldAttrs ← self.lineAttrs[top]?
    let moved ← forUp top (bottom - top) (fun i lb => lb.moveLine i (i + 1)) self
    moved.placeLine bottom oldTop oldAttrs

/-- `linebuf_reverse_index`. -/
def linebufReverseIndex (self : LineBuf) (top bottom : Nat) : Option LineBuf :=
  if self.ynum - 1 ≤ top ∨ self.ynum ≤ bottom ∨ bottom ≤ top then some self
  else do
    let oldBottom ← self.lineMap[bottom]?
    let oldAttrs ← self.lineAttrs[bottom]?
    let moved ← forDown (top + 1) (bottom - top) (fun i lb => lb.moveLine i (i - 1)) self
    moved.placeLine top oldBottom oldAttrs

/-- `self->scratch[i] = self->line_map[i]`. -/
def LineBuf.saveScratch (self : LineBuf) (i : Nat) : Option LineBuf := do
  let physical ← self.lineMap[i]?
  let scratch ← setAt self.scratch i physical
  some { self with scratch := scratch }

/-- `self->line_map[target] = self->scratch[source]`. -/
def LineBuf.loadScratch (self : LineBuf) (target source : Nat) : Option LineBuf := do
  let physical ← self.scratch[source]?
  let map ← setAt self.lineMap target physical
  some { self with lineMap := map }

/-- `init_line(self, &l, line_map[i]); clear_line_(&l, xnum); line_attrs[i].val = 0`, which is
`linebuf_clear_line` with the attributes cleared. -/
def LineBuf.blankLine (self : LineBuf) (i : Nat) : Option LineBuf := linebufClearLine self i true

/-- `linebuf_insert_lines`. -/
def linebufInsertLines (self : LineBuf) (num y bottom : Nat) : Option LineBuf :=
  if self.ynum ≤ y ∨ bottom < y ∨ self.ynum ≤ bottom then some self
  else
    let ylimit := bottom + 1
    let num := min (ylimit - y) num
    if 0 < num then do
      let lb ← forUp (ylimit - num) num (fun i lb => lb.saveScratch i) self
      let lb ← forDown (y + num) (ylimit - (y + num)) (fun i lb => lb.moveLine i (i - num)) lb
      let lb ← forUp 0 num (fun i lb => lb.loadScratch (y + i) (ylimit - num + i)) lb
      forUp y num (fun i lb => lb.blankLine i) lb
    else some self

/-- `linebuf_delete_lines`.  The middle loop of the source runs past the region (to
`i + num < ynum`); the entries it misplaces are overwritten by the loops after it. -/
def linebufDeleteLines (self : LineBuf) (num y bottom : Nat) : Option LineBuf :=
  let ylimit := bottom + 1
  let num := min (ylimit - y) num
  if self.ynum ≤ y ∨ bottom < y ∨ self.ynum ≤ bottom ∨ num < 1 then some self
  else do
    let lb ← forUp y num (fun i lb => lb.saveScratch i) self
    let lb ← forUp y (min ylimit (self.ynum - num) - y) (fun i lb => lb.moveLine i (i + num)) lb
    let lb ← forUp 0 num (fun i lb => lb.loadScratch (ylimit - num + i) (y + i)) lb
    forUp (ylimit - num) num (fun i lb => lb.blankLine i) lb

/-- `linebuf_copy_line_to`. -/
def linebufCopyLineTo (self : LineBuf) (line : Line) (where_ : Nat) : Option LineBuf := do
  let lb ← self.onRow where_ fun row => some (copyLine line.cells row)
  let attrs ← setAt lb.lineAttrs where_ { line.attrs with hasDirtyText := true }
  some { lb with lineAttrs := attrs }

end Smelly
