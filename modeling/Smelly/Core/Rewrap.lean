/-
Module: Smelly.Core.Rewrap
Purpose: The reflow loop of `rewrap.h` and its two instances, `linebuf_rewrap` and
  `historybuf_rewrap`.  The macros a buffer defines before it includes `rewrap.h` are the fields
  of `RewrapMacros`.
Trusted boundary: human-reviewed model of smelly/rewrap.h, smelly/line-buf.c and
  smelly/history.c
-/
import Smelly.Core.HistoryBuf
import Smelly.Core.LineBuf

namespace Smelly

open Checked

/-- `TrackCursor`; the sentinel is the end of the list. -/
structure TrackCursor where
  x : Nat
  y : Nat
  isTrackedLine : Bool := false
deriving DecidableEq, Repr, Inhabited

/-- `copy_range`. -/
def copyRange (src : Row) (srcAt : Nat) (dest : Row) (destAt num : Nat) : Option Row :=
  if srcAt + num ≤ src.length ∧ destAt + num ≤ dest.length then
    some (dest.take destAt ++ (src.drop srcAt).take num ++ dest.drop (destAt + num))
  else none

/-- The macros of `rewrap.h`.  The destination carries the line `dest->line` points at, and the
two macros that start a line also return the attributes they leave in `src->line`. -/
structure RewrapMacros (Src Dest : Type) where
  srcXnum : Src → Nat
  destXnum : Dest → Nat
  initSrcLine : Src → Nat → Option Line
  clearSrcWrapped : Src → Nat → Option Src
  firstDestLine : Dest → LineAttrs → Option (Dest × LineAttrs)
  nextDestLine : Dest → Bool → LineAttrs → Option (Dest × LineAttrs)
  destY : Dest → Nat
  onDestLine : Dest → (Row → Option Row) → Option Dest

/-- The variables of `rewrap_inner`; `srcLine` is `src->line`. -/
structure RewrapState (Src Dest : Type) where
  src : Src
  dest : Dest
  srcLine : Line := {}
  isFirstLine : Bool := true
  destX : Nat := 0
  track : List TrackCursor := []
deriving DecidableEq, Repr, Inhabited

/-- `while(src_x_limit && cpu_cells[src_x_limit - 1].ch == BLANK_CHAR) src_x_limit--`. -/
def trimmedLimit (row : Row) : Nat → Option Nat
  | 0 => some 0
  | limit + 1 => do
      let cell ← row[limit]?
      if cell.ch = blankChar then trimmedLimit row limit else some (limit + 1)

/-- A cursor past the cells that are copied moves to the last of them. -/
def TrackCursor.clamp (limit : Nat) (t : TrackCursor) : TrackCursor :=
  if t.isTrackedLine ∧ limit ≤ t.x then { t with x := max 1 limit - 1 } else t

/-- A cursor on one of the `num` cells that are copied follows its cell. -/
def TrackCursor.follow (srcX num destX destY : Nat) (t : TrackCursor) : TrackCursor :=
  if t.isTrackedLine ∧ srcX ≤ t.x ∧ t.x < srcX + num then
    { t with y := destY, x := destX + (t.x - srcX + if 0 < t.x then 1 else 0) }
  else t

namespace RewrapMacros

variable {Src Dest : Type} (m : RewrapMacros Src Dest)

/-- `next_dest_line(continued); dest_x = 0`. -/
def startLine (st : RewrapState Src Dest) (continued : Bool) :
    Option (RewrapState Src Dest) := do
  let (dest, attrs) ← m.nextDestLine st.dest continued st.srcLine.attrs
  some { st with dest := dest, destX := 0, srcLine := { st.srcLine with attrs := attrs } }

/-- `if (dest_x >= dest->xnum) { next_dest_line(true); dest_x = 0; }`. -/
def wrapDest (st : RewrapState Src Dest) : Option (RewrapState Src Dest) :=
  if m.destXnum st.dest ≤ st.destX then m.startLine st true else some st

/-- The loop `while (src_x < src_x_limit)`. -/
def copyCells (limit : Nat) : (fuel srcX : Nat) → RewrapState Src Dest →
    Option (RewrapState Src Dest)
  | 0, srcX, st => if srcX < limit then none else some st
  | fuel + 1, srcX, st =>
    if srcX < limit then do
      let st ← m.wrapDest st
      let num := min (m.srcXnum st.src - srcX) (m.destXnum st.dest - st.destX)
      let dest ← m.onDestLine st.dest fun row =>
        copyRange st.srcLine.cells srcX row st.destX num
      let track := st.track.map (TrackCursor.follow srcX num st.destX (m.destY st.dest))
      copyCells limit fuel (srcX + num)
        { st with dest := dest, destX := st.destX + num, track := track }
    else some st

/-- `init_src_line` and what follows it up to the copying loop: trailing blanks in front of a
hard line break are left out, and the wrap mark of a continued line is removed. -/
def openSrcLine (st : RewrapState Src Dest) (srcY : Nat) :
    Option (RewrapState Src Dest × Bool × Nat) := do
  let line ← m.initSrcLine st.src srcY
  let last ← line.cells[m.srcXnum st.src - 1]?
  let continued := last.gpu.attrs.nextCharWasWrapped
  if continued then
    let src ← m.clearSrcWrapped st.src srcY
    let cells ← setAt line.cells (m.srcXnum st.src - 1) (last.setWrapped false)
    some ({ st with src := src, srcLine := { line with cells := cells } }, true, m.srcXnum st.src)
  else
    let limit ← trimmedLimit line.cells (m.srcXnum st.src)
    some ({ st with srcLine := line }, false, limit)

/-- `if (is_first_line) { first_dest_line; is_first_line = false; }`. -/
def startDest (st : RewrapState Src Dest) : Option (RewrapState Src Dest) :=
  if st.isFirstLine then do
    let (dest, attrs) ← m.firstDestLine st.dest st.srcLine.attrs
    some { st with
      dest := dest
      srcLine := { st.srcLine with attrs := attrs }
      isFirstLine := false }
  else some st

/-- What follows the copying loop: a hard line break ends the destination line. -/
def closeSrcLine (srcLimit srcY : Nat) (continued : Bool) (st : RewrapState Src Dest) :
    Option (RewrapState Src Dest) :=
  if continued = false ∧ srcY + 1 < srcLimit then do
    let line ← m.initSrcLine st.src (srcY + 1)
    m.startLine { st with srcLine := line } false
  else some st

/-- One round of the outer loop. -/
def rewrapLine (srcLimit srcY : Nat) (st : RewrapState Src Dest) :
    Option (RewrapState Src Dest) := do
  let tracked := st.track.map fun t => { t with isTrackedLine := srcY = t.y }
  let (st, continued, limit) ← m.openSrcLine { st with track := tracked } srcY
  let st ← m.startDest { st with track := st.track.map (TrackCursor.clamp limit) }
  let st ← m.copyCells limit limit 0 st
  m.closeSrcLine srcLimit srcY continued st

/-- `rewrap_inner`; the outer loop runs at least once. -/
def rewrapInner (src : Src) (dest : Dest) (srcLimit : Nat) (track : List TrackCursor) :
    Option (RewrapState Src Dest) :=
  forUp 0 (max 1 srcLimit) (m.rewrapLine srcLimit) { src := src, dest := dest, track := track }

end RewrapMacros

/-! ### `linebuf_rewrap` -/

/-- The destination of `linebuf_rewrap`: the variable `dest_y` is the line `dest->line` points
at, and lines that do not fit any more are added to the history. -/
structure LineBufDest where
  dest : LineBuf
  destY : Nat := 0
  historybuf : Option HistoryBuf := none
deriving DecidableEq, Repr, Inhabited

/-- `set_dest_line_attrs`. -/
def LineBufDest.setLineAttrs (self : LineBufDest) (attrs : LineAttrs) :
    Option (LineBufDest × LineAttrs) := do
  let lineAttrs ← setAt self.dest.lineAttrs self.destY attrs
  some ({ self with dest := { self.dest with lineAttrs := lineAttrs } },
    { attrs with promptKind := .unknownPromptKind })

/-- `dest->line->attrs.has_dirty_text = true; historybuf_add_line(historybuf, dest->line)` if
there is a history. -/
def LineBufDest.addToHistory (self : LineBufDest) : Option LineBufDest :=
  match self.historybuf with
  | none => some self
  | some history => do
      let line ← linebufInitLine self.dest (self.dest.ynum - 1)
      let history ← historybufAddLine history
        { line with attrs := { line.attrs with hasDirtyText := true } }
      some { self with historybuf := some history }

/-- The part of `next_dest_line` that makes room for the line: scroll on the last line, else move
down. -/
def LineBufDest.advance (self : LineBufDest) : Option LineBufDest :=
  if self.dest.ynum - 1 ≤ self.destY then do
    let dest ← linebufIndex self.dest 0 (self.dest.ynum - 1)
    let scrolled ← { self with dest := dest }.addToHistory
    let dest ← linebufClearLine scrolled.dest (scrolled.dest.ynum - 1) true
    some { scrolled with dest := dest }
  else some { self with destY := self.destY + 1 }

/-- `next_dest_line`. -/
def LineBufDest.nextLine (self : LineBufDest) (continued : Bool) (attrs : LineAttrs) :
    Option (LineBufDest × LineAttrs) := do
  let dest ← linebufSetLastCharAsContinuation self.dest self.destY continued
  let moved ← { self with dest := dest }.advance
  moved.setLineAttrs attrs

/-- The macros `line-buf.c` includes `rewrap.h` with. -/
def linebufMacros : RewrapMacros LineBuf LineBufDest where
  srcXnum src := src.xnum
  destXnum dest := dest.dest.xnum
  initSrcLine := linebufInitLine
  clearSrcWrapped src y := src.onRow y fun row => modifyAt row (src.xnum - 1) (·.setWrapped false)
  firstDestLine dest attrs := { dest with destY := 0 }.setLineAttrs attrs
  nextDestLine := LineBufDest.nextLine
  destY dest := dest.destY
  onDestLine dest operation := do
    let lb ← dest.dest.onRow dest.destY operation
    some { dest with dest := lb }

/-- The number of lines up to the last one with content, the search of `linebuf_rewrap` from the
last line up. -/
def contentLines (self : LineBuf) : Nat → Option Nat
  | 0 => some 0
  | first + 1 => do
      let row ← self.row first
      if row.any (·.ch ≠ blankChar) then some (first + 1) else contentLines self first

/-- What `linebuf_rewrap` leaves in its arguments. -/
structure LineBufRewrapped where
  self : LineBuf
  other : LineBuf
  historybuf : Option HistoryBuf
  numContentLinesBefore : Nat
  numContentLinesAfter : Nat
  track : List TrackCursor
deriving DecidableEq, Repr, Inhabited

/-- `linebuf_rewrap`. -/
def linebufRewrap (self other : LineBuf) (historybuf : Option HistoryBuf)
    (track : List TrackCursor) : Option LineBufRewrapped :=
  if other.xnum = self.xnum ∧ other.ynum = self.ynum then
    some
      { self := self
        other := { other with
          lineMap := self.lineMap, lineAttrs := self.lineAttrs, cells := self.cells }
        historybuf := historybuf
        numContentLinesBefore := self.ynum
        numContentLinesAfter := self.ynum
        track := track }
  else do
    let before ← contentLines self self.ynum
    if before = 0 then
      some
        { self := self
          other := other
          historybuf := historybuf
          numContentLinesBefore := 0
          numContentLinesAfter := 0
          track := track }
    else do
      let st ← linebufMacros.rewrapInner self { dest := other, historybuf := historybuf } before
        track
      let after := st.dest.destY + 1
      let dest ← forUp 0 after (fun i lb => linebufMarkLineDirty lb i) st.dest.dest
      some
        { self := st.src
          other := dest
          historybuf := st.dest.historybuf
          numContentLinesBefore := before
          numContentLinesAfter := after
          track := st.track }

/-! ### `historybuf_rewrap` -/

/-- The destination of `historybuf_rewrap` and the slot `dest->line` points at. -/
structure HistoryBufDest where
  dest : HistoryBuf
  slot : Nat := 0
deriving DecidableEq, Repr, Inhabited

/-- `next_dest_line` of `history.c`. -/
def HistoryBufDest.nextLine (self : HistoryBufDest) (cont : Bool) (attrs : LineAttrs) :
    Option (HistoryBufDest × LineAttrs) := do
  let dest ← historyBufSetLastCharAsContinuation self.dest 0 cont
  let (pushed, idx) := historybufPush dest
  let dest ← pushed.setAttrs idx attrs
  some ({ dest := dest, slot := idx }, attrs)

/-- `map_src_index`. -/
def mapSrcIndex (src : HistoryBuf) (y : Nat) : Nat := (src.startOfData + y) % src.ynum

/-- The macros `history.c` includes `rewrap.h` with; `dest_y` stays 0. -/
def historybufMacros : RewrapMacros HistoryBuf HistoryBufDest where
  srcXnum src := src.xnum
  destXnum dest := dest.dest.xnum
  initSrcLine src y := historybufInitSlot src (mapSrcIndex src y)
  clearSrcWrapped src y :=
    src.onSlot (mapSrcIndex src y) fun row => modifyAt row (src.xnum - 1) (·.setWrapped false)
  firstDestLine dest attrs := dest.nextLine false attrs
  nextDestLine := HistoryBufDest.nextLine
  destY _ := 0
  onDestLine dest operation := do
    let hb ← dest.dest.onSlot dest.slot operation
    some { dest with dest := hb }

/-- `attrptr(other, (other->start_of_data + i) % other->ynum)->has_dirty_text = true`. -/
def HistoryBuf.markDirty (self : HistoryBuf) (i : Nat) : Option HistoryBuf := do
  let lineAttrs ← modifyAt self.lineAttrs ((self.startOfData + i) % self.ynum)
    fun attrs => { attrs with hasDirtyText := true }
  some { self with lineAttrs := lineAttrs }

/-- `historybuf_rewrap`. -/
def historybufRewrap (self other : HistoryBuf) : Option HistoryBuf :=
  if other.xnum = self.xnum ∧ other.ynum = self.ynum then
    some { other with
      cells := self.cells
      lineAttrs := self.lineAttrs
      count := self.count
      startOfData := self.startOfData }
  else
    let other := { other with count := 0, startOfData := 0 }
    if 0 < self.count then do
      let st ← historybufMacros.rewrapInner self { dest := other } self.count []
      forUp 0 st.dest.dest.count (fun i hb => hb.markDirty i) st.dest.dest
    else some other

end Smelly
