/-
Module: Smelly.Core.PagerHistory
Purpose: The pager history of `history.c`: the byte ring behind the scrollback that receives,
  as text with escape codes, every line the scrollback drops.
Trusted boundary: human-reviewed model of smelly/history.c and smelly/ringbuf.c; the text of a
  line, which `line_as_ansi` makes, is a parameter, and `ringbuf_new` does not fail
-/
import Smelly.Core.Charsets
import Smelly.Core.HistoryBuf

namespace Smelly

/-- `PagerHistoryBuf`.  `ringbuf` holds the bytes in use, oldest first, and `capacity` is
`ringbuf_capacity`. -/
structure PagerHistoryBuf where
  maximumSize : Nat
  capacity : Nat
  ringbuf : Bytes := []
deriving DecidableEq, Repr

/-- `line_as_ansi` on a whole line: the characters it leaves in the output buffer, and the active
hyperlink the buffer remembers from one line to the next. -/
abbrev LineAsAnsi := Line → UInt16 → List UInt32 × UInt16

/-- `initial_pagerhist_ringbuf_sz`. -/
def initialPagerhistRingbufSz (pagerhistSz : Nat) : Nat := min (1024 * 1024) pagerhistSz

/-- `alloc_pagerhist`. -/
def allocPagerhist (pagerhistSz : Nat) : Option PagerHistoryBuf :=
  if pagerhistSz = 0 then none
  else some { maximumSize := pagerhistSz, capacity := initialPagerhistRingbufSz pagerhistSz }

/-- `ringbuf_memcpy_into`: the oldest bytes make room. -/
def ringbufMemcpyInto (capacity : Nat) (ringbuf bytes : Bytes) : Bytes :=
  (ringbuf ++ bytes).drop ((ringbuf ++ bytes).length - capacity)

/-- `pagerhist_extend`. -/
def pagerhistExtend (ph : PagerHistoryBuf) (minsz : Nat) : PagerHistoryBuf :=
  if ph.maximumSize ≤ ph.capacity then ph
  else { ph with capacity := min ph.maximumSize (ph.capacity + max (1024 * 1024) minsz) }

/-- `pagerhist_write_bytes`. -/
def pagerhistWriteBytes (ph : PagerHistoryBuf) (buf : Bytes) : PagerHistoryBuf × Bool :=
  if ph.maximumSize < buf.length then (ph, false)
  else if buf.isEmpty then (ph, true)
  else
    let space := ph.capacity - ph.ringbuf.length
    let ph := if space < buf.length then pagerhistExtend ph buf.length else ph
    ({ ph with ringbuf := ringbufMemcpyInto ph.capacity ph.ringbuf buf }, true)

/-- `pagerhist_write_ucs4`. -/
def pagerhistWriteUcs4 (ph : PagerHistoryBuf) : List UInt32 → PagerHistoryBuf × Bool
  | [] => (ph, true)
  | ch :: rest =>
    match pagerhistWriteBytes ph (encodeUtf8 ch) with
    | (ph, true) => pagerhistWriteUcs4 ph rest
    | (ph, false) => (ph, false)

/-- The loop of `pagerhist_ensure_start_is_valid_utf8` over the bytes of `scratch` that are left:
`last_reject_at` when it ends. -/
def lastRejectAtFrom (state : Nat) (codep : UInt32) (count lastRejectAt : Nat) : Bytes → Nat
  | [] => lastRejectAt
  | byte :: rest =>
    let (state, codep) := decodeUtf8 state codep byte
    if state = utf8Accept then lastRejectAt
    else if state = utf8Reject then lastRejectAtFrom utf8Accept codep (count + 1) (count + 1) rest
    else lastRejectAtFrom state codep (count + 1) lastRejectAt rest

/-- `pagerhist_ensure_start_is_valid_utf8`. -/
def pagerhistEnsureStartIsValidUtf8 (ph : PagerHistoryBuf) : PagerHistoryBuf × Bool :=
  let scratch := ph.ringbuf.take 8
  let lastRejectAt := lastRejectAtFrom utf8Accept 0 0 0 scratch
  if lastRejectAt ≠ 0 then ({ ph with ringbuf := ph.ringbuf.drop lastRejectAt }, true)
  else (ph, false)

/-- `init_line` when there is a pager history: the line in the first slot continues what the
pager history ends with, unless that is a newline. -/
def pagedInitSlot (self : HistoryBuf) (ph : PagerHistoryBuf) (num : Nat) : Option Line := do
  let l ← historybufInitSlot self num
  if num = 0 then
    some { l with attrs := { l.attrs with
      isContinued := !ph.ringbuf.isEmpty && ph.ringbuf.getLast? != some 10 } }
  else some l

/-- `pagerhist_push` after `init_line` has found the line; `wrapped` is the flag of its last
cell. -/
def pagerhistPush (lineAsAnsi : LineAsAnsi) (l : Line) (wrapped : Bool)
    (state : PagerHistoryBuf × UInt16) : PagerHistoryBuf × UInt16 :=
  let (ph, activeHyperlinkId) := state
  let (text, activeHyperlinkId) := lineAsAnsi l activeHyperlinkId
  let ph := (pagerhistWriteBytes ph [0x1b, 0x5b, 0x6d]).1
  match pagerhistWriteUcs4 ph text with
  | (ph, true) =>
    ((pagerhistWriteBytes ph (if wrapped then [13] else [13, 10])).1, activeHyperlinkId)
  | (ph, false) => (ph, activeHyperlinkId)

/-- A scrollback with its pager history, and the `active_hyperlink_id` of the buffer that
`line_as_ansi` writes to. -/
structure PagedHistory where
  ring : HistoryBuf
  pagerhist : Option PagerHistoryBuf := none
  activeHyperlinkId : UInt16 := 0
deriving DecidableEq, Repr

/-- What `historybuf_push` does about the oldest line before its slot is reused. -/
def PagedHistory.pageOut (lineAsAnsi : LineAsAnsi) (self : PagedHistory) :
    Option PagedHistory :=
  match self.pagerhist with
  | none => some self
  | some ph => do
      let l ← pagedInitSlot self.ring ph self.ring.startOfData
      let last ← l.cells[self.ring.xnum - 1]?
      let (ph, activeHyperlinkId) := pagerhistPush lineAsAnsi l last.gpu.attrs.nextCharWasWrapped
        (ph, self.activeHyperlinkId)
      some { self with pagerhist := some ph, activeHyperlinkId := activeHyperlinkId }

/-- `historybuf_add_line` with a pager history. -/
def pagedHistorybufAddLine (lineAsAnsi : LineAsAnsi) (self : PagedHistory) (line : Line) :
    Option PagedHistory := do
  let paged ← if self.ring.count = self.ring.ynum then self.pageOut lineAsAnsi else some self
  let ring ← historybufAddLine paged.ring line
  some { paged with ring := ring }

/-- `create_historybuf`, with its pager history. -/
def createPagedHistory (lines columns pagerhistSz : Nat) : Option PagedHistory := do
  let ring ← createHistorybuf lines columns
  some { ring, pagerhist := allocPagerhist pagerhistSz }

/-- `init_line`, with or without a pager history. -/
def PagedHistory.initSlot (self : PagedHistory) (num : Nat) : Option Line :=
  match self.pagerhist with
  | none => historybufInitSlot self.ring num
  | some ph => pagedInitSlot self.ring ph num

/-- `historybuf_init_line`, with or without a pager history. -/
def PagedHistory.initLine (self : PagedHistory) (lnum : Nat) : Option Line :=
  self.initSlot (indexOf self.ring lnum)

/-- `historybuf_pop_line` with a pager history: `some none` when the ring is empty. -/
def pagedHistorybufPopLine (self : PagedHistory) : Option (Option (PagedHistory × Line)) :=
  if self.ring.count = 0 then some none
  else do
    let line ← self.initSlot ((self.ring.startOfData + self.ring.count - 1) % self.ring.ynum)
    some (some ({ self with ring := { self.ring with count := self.ring.count - 1 } }, line))

inductive HistoryEvent where
  | addLine (line : Line)
  | popLine
deriving DecidableEq, Repr

def historyStep (lineAsAnsi : LineAsAnsi) (self : PagedHistory) :
    HistoryEvent → Option PagedHistory
  | .addLine line => pagedHistorybufAddLine lineAsAnsi self line
  | .popLine => do
      match ← pagedHistorybufPopLine self with
      | none => some self
      | some (popped, _) => some popped

end Smelly
