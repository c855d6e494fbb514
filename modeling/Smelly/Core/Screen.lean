/-
Module: Smelly.Core.Screen
Purpose: The screen of `screen.c` as far as scrolling needs it: the two line buffers, the
  scrollback, the cursor and the margins, with the operations that move the cursor down a line
  or scroll the screen up or down.
Trusted boundary: human-reviewed model of smelly/screen.c; no input method overlay is being
  shown, and the images, the selections and the last visited prompt, which scroll along, are
  left out
-/
import Smelly.Core.LineBuf
import Smelly.Core.PagerHistory
import Mathlib.Algebra.Ring.Nat

namespace Smelly

open Checked

/-- `Screen`.  `onMain` says which buffer `linebuf` points to. -/
structure Screen where
  columns : Nat
  lines : Nat
  marginTop : Nat
  marginBottom : Nat
  cursor : Cursor := {}
  mDECOM : Bool := false
  onMain : Bool := true
  mainLinebuf : LineBuf
  altLinebuf : LineBuf
  historybuf : PagedHistory
  historyLineAddedCount : Nat := 0
deriving DecidableEq, Repr

/-- The part of `new` that sets these fields; there is at least one line and one column. -/
def newScreen (lines columns scrollback pagerhistSz : Nat) : Screen :=
  { columns := columns
    lines := lines
    marginTop := 0
    marginBottom := lines - 1
    mainLinebuf := allocLinebuf lines columns
    altLinebuf := allocLinebuf lines columns
    historybuf :=
      { ring := blankHistorybuf (max scrollback lines) columns
        pagerhist := allocPagerhist pagerhistSz } }

/-- `self->linebuf`. -/
def Screen.linebuf (self : Screen) : LineBuf :=
  if self.onMain then self.mainLinebuf else self.altLinebuf

/-- Store what an operation made of `*self->linebuf`. -/
def Screen.setLinebuf (self : Screen) (linebuf : LineBuf) : Screen :=
  if self.onMain then { self with mainLinebuf := linebuf } else { self with altLinebuf := linebuf }

/-- `cursor_within_margins`. -/
def cursorWithinMargins (self : Screen) : Bool :=
  self.marginTop ≤ self.cursor.y ∧ self.cursor.y ≤ self.marginBottom

/-- `screen_ensure_bounds`. -/
def screenEnsureBounds (self : Screen) (forceUseMargins inMargins : Bool) : Screen :=
  let (top, bottom) :=
    if inMargins ∧ (forceUseMargins ∨ self.mDECOM) then (self.marginTop, self.marginBottom)
    else (0, self.lines - 1)
  { self with cursor := { self.cursor with
      x := min self.cursor.x (self.columns - 1)
      y := max top (min self.cursor.y bottom) } }

/-- `screen_cursor_position`. -/
def screenCursorPosition (self : Screen) (line column : Nat) : Screen :=
  let inMargins := cursorWithinMargins self
  let line := (if line = 0 then 1 else line) - 1
  let column := (if column = 0 then 1 else column) - 1
  let line :=
    if self.mDECOM then
      max self.marginTop (min ((line + self.marginTop) % 2 ^ 32) self.marginBottom)
    else line
  screenEnsureBounds { self with cursor := { self.cursor with x := column, y := line } } false
    inMargins

/-- `screen_cursor_up`; `down` stands for a positive `move_direction`. -/
def screenCursorUp (self : Screen) (count : Nat) (doCarriageReturn down : Bool) : Screen :=
  let inMargins := cursorWithinMargins self
  let count := if count = 0 then 1 else count
  let y := if down then self.cursor.y + count else self.cursor.y - count
  let moved := screenEnsureBounds { self with cursor := { self.cursor with y := y } } true inMargins
  if doCarriageReturn then { moved with cursor := { moved.cursor with x := 0 } } else moved

/-- `screen_cursor_down`. -/
def screenCursorDown (self : Screen) (count : Nat) : Screen := screenCursorUp self count false true

/-- The part of `INDEX_UP` that stores the line about to leave the screen. -/
def addBottomToHistory (lineAsAnsi : LineAsAnsi) (self : Screen) (bottom : Nat) :
    Option Screen :=
  if self.onMain ∧ self.marginTop = 0 then do
    let line ← linebufInitLine self.linebuf bottom
    let historybuf ← pagedHistorybufAddLine lineAsAnsi self.historybuf line
    some { self with
      historybuf := historybuf
      historyLineAddedCount := (self.historyLineAddedCount + 1) % 2 ^ 32 }
  else some self

/-- `INDEX_UP`. -/
def indexUp (lineAsAnsi : LineAsAnsi) (self : Screen) (top bottom : Nat) : Option Screen := do
  let rotated ← linebufIndex self.linebuf top bottom
  let stored ← addBottomToHistory lineAsAnsi (self.setLinebuf rotated) bottom
  let cleared ← linebufClearLine stored.linebuf bottom true
  some (stored.setLinebuf cleared)

/-- `screen_index`. -/
def screenIndex (lineAsAnsi : LineAsAnsi) (self : Screen) : Option Screen :=
  if self.cursor.y = self.marginBottom then
    indexUp lineAsAnsi self self.marginTop self.marginBottom
  else some (screenCursorDown self 1)

/-- `screen_scroll`. -/
def screenScroll (lineAsAnsi : LineAsAnsi) (self : Screen) (count : Nat) : Option Screen :=
  forUp 0 count (fun _ s => indexUp lineAsAnsi s self.marginTop self.marginBottom) self

/-- `INDEX_DOWN`. -/
def indexDown (self : Screen) (top bottom : Nat) : Option Screen := do
  let rotated ← linebufReverseIndex self.linebuf top bottom
  let cleared ← linebufClearLine rotated top true
  some (self.setLinebuf cleared)

/-- One round of `_reverse_scroll`.  The line that is popped stays where it is in the scrollback,
and is copied from there. -/
def reverseScrollRound (self : Screen) (top bottom : Nat) (fill : Bool) : Option Screen := do
  let popped ← if fill then pagedHistorybufPopLine self.historybuf else some none
  match popped with
  | none => indexDown self top bottom
  | some (historybuf, line) => do
      let moved ← indexDown { self with historybuf := historybuf } top bottom
      let main ← linebufCopyLineTo moved.mainLinebuf line 0
      some { moved with mainLinebuf := main }

/-- `_reverse_scroll`. -/
def reverseScroll (self : Screen) (count : Nat) (fillFromScrollback : Bool) : Option Screen :=
  let fill := fillFromScrollback && self.onMain
  let count :=
    if fill then min (max self.lines self.historybuf.ring.count) count else min self.lines count
  forUp 0 count (fun _ s => reverseScrollRound s self.marginTop self.marginBottom fill) self

/-- `screen_reverse_scroll`. -/
def screenReverseScroll (self : Screen) (count : Nat) : Option Screen :=
  reverseScroll self count false

/-- `screen_reverse_scroll_and_fill_from_scrollback`. -/
def screenReverseScrollAndFillFromScrollback (self : Screen) (count : Nat) : Option Screen :=
  reverseScroll self count true

end Smelly
