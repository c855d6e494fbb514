/-
Module: Smelly.Core.ScreenEditing
Purpose: The operations of `screen.c` that change lines where they are: characters and lines are
  inserted, deleted and erased, and the rendition of regions is changed.
Trusted boundary: human-reviewed model of smelly/screen.c; the selections, which a change of the
  line clears, the images, the redraw flag and the input method overlay are left out
-/
import Smelly.Core.Screen
import Smelly.Core.Sgr

namespace Smelly

open Checked

/-- `linebuf_init_line` on the cursor's line, the line operations, and
`linebuf_mark_line_dirty`. -/
def onCursorLine (self : Screen) (operation : Row → Option Row) : Option Screen := do
  let changed ← self.linebuf.onRow self.cursor.y operation
  let marked ← linebufMarkLineDirty changed self.cursor.y
  some (self.setLinebuf marked)

/-- `num` of the two operations: no count is one, and no more than the rest of the line. -/
def shiftedCharacters (self : Screen) (count : Nat) : Nat :=
  min (self.columns - self.cursor.x) (if count = 0 then 1 else count)

/-- `screen_insert_characters`. -/
def screenInsertCharacters (self : Screen) (count : Nat) : Option Screen :=
  if self.cursor.y ≤ self.lines - 1 then
    let x := self.cursor.x
    let num := shiftedCharacters self count
    onCursorLine self fun row => do
      let shifted ← lineRightShift row x num
      lineApplyCursor shifted self.cursor x num
  else some self

/-- `screen_delete_characters`. -/
def screenDeleteCharacters (self : Screen) (count : Nat) : Option Screen :=
  if self.cursor.y ≤ self.lines - 1 then
    let x := self.cursor.x
    let num := shiftedCharacters self count
    onCursorLine self fun row => do
      let shifted ← leftShiftLine row x num
      lineApplyCursor shifted self.cursor (self.columns - num) num
  else some self

/-- `screen_erase_characters`. -/
def screenEraseCharacters (self : Screen) (count : Nat) : Option Screen :=
  onCursorLine self fun row =>
    lineApplyCursor row self.cursor self.cursor.x (shiftedCharacters self count)

/-! ### Erasing -/

/-- The cells `screen_erase_in_line` erases: the first one and how many. -/
def eraseInLineRange (self : Screen) (how : Nat) : Nat × Nat :=
  if how = 0 then (self.cursor.x, self.columns - self.cursor.x)
  else if how = 1 then (0, self.cursor.x + 1)
  else if how = 2 then (0, self.columns)
  else (0, 0)

/-- `screen_erase_in_line`. -/
def screenEraseInLine (self : Screen) (how : Nat) (private_ : Bool) : Option Screen :=
  let (s, n) := eraseInLineRange self how
  if 0 < n then
    onCursorLine self fun row =>
      if private_ then lineClearText row s n blankChar
      else lineApplyCursor row self.cursor s n
  else some self

/-- One round of the loop of `screen_erase_in_display`. -/
def eraseLine (self : Screen) (private_ : Bool) (linebuf : LineBuf) (y : Nat) :
    Option LineBuf := do
  let erased ←
    if private_ then do
      let cleared ← linebuf.onRow y fun row => lineClearText row 0 self.columns blankChar
      linebufSetLastCharAsContinuation cleared y false
    else linebuf.onRow y fun row => lineApplyCursor row self.cursor 0 self.columns
  linebufClearAttrsAndDirty erased y

/-- `pagerhist_clear`. -/
def pagerhistClear (ph : PagerHistoryBuf) : PagerHistoryBuf :=
  { ph with capacity := initialPagerhistRingbufSz ph.maximumSize, ringbuf := [] }

/-- `screen_clear_scrollback`. -/
def screenClearScrollback (self : Screen) : Screen :=
  { self with historybuf := { self.historybuf with
      ring := historybufClear self.historybuf.ring
      pagerhist := self.historybuf.pagerhist.map pagerhistClear } }

/-- The lines `screen_erase_in_display` erases whole, from the first to the one behind the last. -/
def eraseInDisplayRange (self : Screen) (how : Nat) : Option (Nat × Nat) :=
  if how = 0 then some (self.cursor.y + 1, self.lines)
  else if how = 1 then some (0, self.cursor.y)
  else if how = 2 ∨ how = 3 then some (0, self.lines)
  else none

/-- `screen_erase_in_display`. -/
def screenEraseInDisplay (self : Screen) (how : Nat) (private_ : Bool) : Option Screen :=
  match eraseInDisplayRange self how with
  | none => some self
  | some (a, b) => do
      let linebuf ← forUp a (b - a) (fun y lb => eraseLine self private_ lb y) self.linebuf
      let erased := self.setLinebuf linebuf
      let erased ←
        if how ≠ 2 then do
          let erased ← screenEraseInLine erased how private_
          if how = 1 then do
            let marked ← linebufClearAttrsAndDirty erased.linebuf erased.cursor.y
            some (erased.setLinebuf marked)
          else some erased
        else some erased
      some (if how = 3 ∧ self.onMain then screenClearScrollback erased else erased)

/-! ### Lines -/

/-- `screen_carriage_return`. -/
def screenCarriageReturn (self : Screen) : Screen :=
  { self with cursor := { self.cursor with x := 0 } }

/-- What `screen_insert_lines` and `screen_delete_lines` have in common: lines within the margins
move, and the cursor goes to the start of its line. -/
def moveLines (self : Screen) (count : Nat)
    (operation : LineBuf → (num y bottom : Nat) → Option LineBuf) : Option Screen :=
  let count := if count = 0 then 1 else count
  if self.marginTop ≤ self.cursor.y ∧ self.cursor.y ≤ self.marginBottom then do
    let moved ← operation self.linebuf count self.cursor.y self.marginBottom
    some (screenCarriageReturn (self.setLinebuf moved))
  else some self

/-- `screen_insert_lines`. -/
def screenInsertLines (self : Screen) (count : Nat) : Option Screen :=
  moveLines self count linebufInsertLines

/-- `screen_delete_lines`. -/
def screenDeleteLines (self : Screen) (count : Nat) : Option Screen :=
  moveLines self count linebufDeleteLines

/-- `screen_align`. -/
def screenAlign (self : Screen) : Screen :=
  let homed := screenCursorPosition
    { self with marginTop := 0, marginBottom := self.lines - 1 } 1 1
  homed.setLinebuf (linebufClear homed.linebuf (ord 'E'))

/-- `screen_reverse_index`. -/
def screenReverseIndex (self : Screen) : Option Screen :=
  if self.cursor.y = self.marginTop then indexDown self self.marginTop self.marginBottom
  else some (screenCursorUp self 1 false false)

/-! ### The rendition of a region -/

/-- `apply_sgr_to_cells` on `num` cells of a row from `x` on. -/
def applySgrToRow (row : Row) (x num : Nat) (params : List Int) : Option Row :=
  if x + num ≤ row.length then
    let cells := (row.drop x).take num
    let changed := List.zipWith (fun cell gpu => { cell with gpu := gpu }) cells
      (applySgrToCells (cells.map Cell.gpu) params)
    some (row.take x ++ changed ++ row.drop (x + num))
  else none

/-- The region with its defaults, counted from zero. -/
def zeroBasedRegion (self : Screen) (region : Region) : Region :=
  let shift := if self.mDECOM then self.marginTop else 0
  { top := (if region.top = 0 then 1 else region.top) + shift - 1
    left := (if region.left = 0 then 1 else region.left) - 1
    bottom := (if region.bottom = 0 then self.lines else region.bottom) + shift - 1
    right := (if region.right = 0 then self.columns else region.right) - 1 }

/-- The cells of line `y` that belong to the region: the first one and how many.  With `mDECSACE`
the region is a rectangle, else it runs from its first cell to its last. -/
def regionCells (self : Screen) (mDECSACE : Bool) (region : Region) (y : Nat) : Nat × Nat :=
  let x := min region.left (self.columns - 1)
  if mDECSACE then
    (x, min (if x ≤ region.right then region.right - x + 1 else 0) (self.columns - x))
  else if y = region.top then (x, self.columns - x)
  else if y = region.bottom then (0, min (region.right + 1) self.columns)
  else (0, self.columns)

/-- `select_graphic_rendition`. -/
def changeRendition (self : Screen) (mDECSACE : Bool) (params : List Int) (region : Option Region) :
    Option Screen :=
  match region with
  | none => some { self with cursor := cursorFromSgr self.cursor params }
  | some region => do
      let region := zeroBasedRegion self region
      let linebuf ← forUp region.top (min (region.bottom + 1) self.lines - region.top)
        (fun y lb => lb.onRow y fun row =>
          let (x, num) := regionCells self mDECSACE region y
          applySgrToRow row x num params) self.linebuf
      some (self.setLinebuf linebuf)

end Smelly
