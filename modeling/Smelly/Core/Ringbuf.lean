/-
Module: Smelly.Core.Ringbuf
Purpose: The byte ring of `ringbuf.c`: a block of memory with one byte more than the capacity, the
  offsets of its head and tail, and the loops that copy into, out of and between such rings; and the
  functions of `history.c` that keep the pager history in one.
Trusted boundary: human-reviewed model of smelly/ringbuf.c and smelly/history.c; what `malloc`
  leaves in new memory is a parameter, and it does not fail
-/
import Smelly.Core.PagerRewrap
import Smelly.Lib.MemoryBlock

namespace Smelly

open MemoryBlock

/-- `struct ringbuf_t`; `head` and `tail` are offsets in `buf`. -/
structure Ringbuf where
  size : Nat
  buf : Bytes
  head : Nat
  tail : Nat
deriving DecidableEq, Repr

namespace Ringbuf

/-- `ringbuf_new`. -/
def new (fresh : Nat → UInt8) (capacity : Nat) : Ringbuf :=
  { size := capacity + 1, buf := (List.range (capacity + 1)).map fresh, head := 0, tail := 0 }

/-- `ringbuf_capacity`. -/
def capacity (rb : Ringbuf) : Nat := rb.size - 1

/-- `ringbuf_bytes_free`. -/
def bytesFree (rb : Ringbuf) : Nat :=
  if rb.tail ≤ rb.head then rb.capacity - (rb.head - rb.tail) else rb.tail - rb.head - 1

/-- `ringbuf_bytes_used`. -/
def bytesUsed (rb : Ringbuf) : Nat := rb.capacity - rb.bytesFree

/-- `ringbuf_nextp`. -/
def nextp (rb : Ringbuf) (p : Nat) : Nat := (p + 1) % rb.size

/-- An offset that may have arrived at the end of the memory. -/
def wrap (rb : Ringbuf) (p : Nat) : Nat := if p = rb.size then 0 else p

/-- The part of a copying loop that writes at the head. -/
def writeChunk (rb : Ringbuf) (chunk : Bytes) : Option Ringbuf := do
  let buf ← copyIn rb.buf rb.head chunk
  some { rb with buf := buf, head := rb.wrap (rb.head + chunk.length) }

/-- The part of a copying loop that reads at the tail. -/
def readChunk (rb : Ringbuf) (n : Nat) : Option (Bytes × Ringbuf) :=
  if rb.tail + n ≤ rb.buf.length then
    some ((rb.buf.drop rb.tail).take n, { rb with tail := rb.wrap (rb.tail + n) })
  else none

/-- What the writers do when the head has passed the tail. -/
def dropOldest (rb : Ringbuf) (overflow : Bool) : Ringbuf :=
  if overflow then { rb with tail := rb.nextp rb.head } else rb

/-- The loop of `ringbuf_memcpy_into`; every round copies something, so `fuel` is the number of
bytes. -/
def writeLoop : (fuel : Nat) → Ringbuf → Bytes → Option Ringbuf
  | _, dst, [] => some dst
  | 0, _, _ => none
  | fuel + 1, dst, src => do
    let n := min (dst.size - dst.head) src.length
    let dst ← dst.writeChunk (src.take n)
    writeLoop fuel dst (src.drop n)

/-- `ringbuf_memcpy_into`. -/
def memcpyInto (dst : Ringbuf) (src : Bytes) : Option Ringbuf := do
  let written ← writeLoop src.length dst src
  some (written.dropOldest (dst.bytesFree < src.length))

/-- The loop of `ringbuf_memmove_from` and `ringbuf_memcpy_from`. -/
def readLoop : (fuel : Nat) → Ringbuf → (count : Nat) → Option (Bytes × Ringbuf)
  | _, src, 0 => some ([], src)
  | 0, _, _ => none
  | fuel + 1, src, count => do
    let n := min (src.size - src.tail) count
    let (chunk, src) ← src.readChunk n
    let (more, src) ← readLoop fuel src (count - n)
    some (chunk ++ more, src)

/-- `ringbuf_memmove_from`; the ring is left alone when it holds fewer bytes. -/
def memmoveFrom (src : Ringbuf) (count : Nat) : Option (Bytes × Ringbuf) :=
  if src.bytesUsed < count then some ([], src) else readLoop count src count

/-- `ringbuf_memcpy_from`. -/
def memcpyFrom (src : Ringbuf) (count : Nat) : Option Bytes := do
  let count := min count src.bytesUsed
  let (bytes, _) ← readLoop count src count
  some bytes

/-- The loop of `ringbuf_copy`. -/
def copyLoop : (fuel : Nat) → (dst src : Ringbuf) → (count : Nat) → Option (Ringbuf × Ringbuf)
  | _, dst, src, 0 => some (dst, src)
  | 0, _, _, _ => none
  | fuel + 1, dst, src, count => do
    let nsrc := min (src.size - src.tail) count
    let n := min (dst.size - dst.head) nsrc
    let (chunk, src) ← src.readChunk n
    let dst ← dst.writeChunk chunk
    copyLoop fuel dst src (count - n)

/-- `ringbuf_copy`. -/
def copy (dst src : Ringbuf) (count : Nat) : Option (Ringbuf × Ringbuf) :=
  if src.bytesUsed < count then some (dst, src)
  else do
    let (written, src) ← copyLoop count dst src count
    some (written.dropOldest (dst.bytesFree < count), src)

/-- `ringbuf_findchr`; every call that goes on skips something, so `fuel` is the number of bytes. -/
def findchr (rb : Ringbuf) (c : UInt8) : (fuel : Nat) → (offset : Nat) → Option Nat
  | 0, offset => if rb.bytesUsed ≤ offset then some rb.bytesUsed else none
  | fuel + 1, offset =>
    if rb.bytesUsed ≤ offset then some rb.bytesUsed
    else
      let start := (rb.tail + offset) % rb.size
      let n := min (rb.size - start) (rb.bytesUsed - offset)
      if start + n ≤ rb.buf.length then
        let chunk := (rb.buf.drop start).take n
        if c ∈ chunk then some (offset + chunk.idxOf c) else findchr rb c fuel (offset + n)
      else none

end Ringbuf

/-- `PagerHistoryBuf` with the ring it really has. -/
structure RingPagerHistory where
  maximumSize : Nat
  ringbuf : Ringbuf
deriving DecidableEq, Repr

namespace RingPagerHistory

/-- `alloc_pagerhist` for a size that is not zero. -/
def alloc (fresh : Nat → UInt8) (pagerhistSz : Nat) : RingPagerHistory :=
  { maximumSize := pagerhistSz, ringbuf := .new fresh (initialPagerhistRingbufSz pagerhistSz) }

/-- `pagerhist_extend`. -/
def extend (fresh : Nat → UInt8) (ph : RingPagerHistory) (minsz : Nat) : Option RingPagerHistory :=
  let bufferSize := ph.ringbuf.capacity
  if ph.maximumSize ≤ bufferSize then some ph
  else do
    let newsz := min ph.maximumSize (bufferSize + max (1024 * 1024) minsz)
    let newbuf := Ringbuf.new fresh newsz
    let count := ph.ringbuf.bytesUsed
    let filled := if count ≠ 0 then (newbuf.copy ph.ringbuf count).map Prod.fst else some newbuf
    let newbuf ← filled
    some { ph with ringbuf := newbuf }

/-- `pagerhist_clear`. -/
def clear (fresh : Nat → UInt8) (ph : RingPagerHistory) : RingPagerHistory :=
  { ph with ringbuf := .new fresh (initialPagerhistRingbufSz ph.maximumSize) }

/-- `pagerhist_write_bytes`. -/
def writeBytes (fresh : Nat → UInt8) (ph : RingPagerHistory) (buf : Bytes) :
    Option (RingPagerHistory × Bool) :=
  if ph.maximumSize < buf.length then some (ph, false)
  else if buf.isEmpty then some (ph, true)
  else do
    let extended :=
      if ph.ringbuf.bytesFree < buf.length then ph.extend fresh buf.length else some ph
    let ph ← extended
    let ringbuf ← ph.ringbuf.memcpyInto buf
    some ({ ph with ringbuf := ringbuf }, true)

/-- `pagerhist_ensure_start_is_valid_utf8`. -/
def ensureStartIsValidUtf8 (ph : RingPagerHistory) : Option (RingPagerHistory × Bool) := do
  let scratch ← ph.ringbuf.memcpyFrom 8
  let lastRejectAt := lastRejectAtFrom utf8Accept 0 0 0 scratch
  if lastRejectAt ≠ 0 then do
    let (_, ringbuf) ← ph.ringbuf.memmoveFrom lastRejectAt
    some ({ ph with ringbuf := ringbuf }, true)
  else some (ph, false)

/-- What `init_line` asks about the pager history: whether it holds something and does not end with
a newline. -/
def continues (ph : RingPagerHistory) : Option Bool :=
  let sz := ph.ringbuf.bytesUsed
  if 0 < sz then do
    let pos ← ph.ringbuf.findchr 10 sz (sz - 1)
    some (decide (sz ≤ pos))
  else some false

/-- The bytes of `pagerhist_as_bytes`, once they start with a character. -/
def bytes (ph : RingPagerHistory) : Option Bytes := ph.ringbuf.memcpyFrom ph.ringbuf.bytesUsed

end RingPagerHistory

/-! ### Both levels as state machines -/

/-- What is done with a pager history, or asked of it. -/
inductive PagerEvent where
  | write (buf : Bytes)
  | ensureStart
  | clear
  | continues
  | bytes
deriving DecidableEq, Repr

inductive PagerAnswer where
  | written (taken : Bool)
  | trimmed (changed : Bool)
  | cleared
  | continues (answer : Bool)
  | bytes (content : Bytes)
deriving DecidableEq, Repr

/-- One event on the ring. -/
def RingPagerHistory.step (fresh : Nat → UInt8) (ph : RingPagerHistory) :
    PagerEvent → Option (RingPagerHistory × PagerAnswer)
  | .write buf => (ph.writeBytes fresh buf).map fun (ph, taken) => (ph, .written taken)
  | .ensureStart => ph.ensureStartIsValidUtf8.map fun (ph, changed) => (ph, .trimmed changed)
  | .clear => some (ph.clear fresh, .cleared)
  | .continues => ph.continues.map fun answer => (ph, .continues answer)
  | .bytes => ph.bytes.map fun content => (ph, .bytes content)

/-- The same event on the bytes in use alone. -/
def PagerHistoryBuf.step (ph : PagerHistoryBuf) : PagerEvent → PagerHistoryBuf × PagerAnswer
  | .write buf =>
    let (ph, taken) := pagerhistWriteBytes ph buf
    (ph, .written taken)
  | .ensureStart =>
    let (ph, changed) := pagerhistEnsureStartIsValidUtf8 ph
    (ph, .trimmed changed)
  | .clear =>
    ({ ph with capacity := initialPagerhistRingbufSz ph.maximumSize, ringbuf := [] }, .cleared)
  | .continues => (ph, .continues (!ph.ringbuf.isEmpty && ph.ringbuf.getLast? != some 10))
  | .bytes => (ph, .bytes ph.ringbuf)

/-- The answers so far are kept beside the ring. -/
def RingPagerHistory.stepAnswering (fresh : Nat → UInt8)
    (state : RingPagerHistory × List PagerAnswer) (event : PagerEvent) :
    Option (RingPagerHistory × List PagerAnswer) :=
  (state.1.step fresh event).map fun (ph, answer) => (ph, state.2 ++ [answer])

def PagerHistoryBuf.stepAnswering (state : PagerHistoryBuf × List PagerAnswer)
    (event : PagerEvent) : PagerHistoryBuf × List PagerAnswer :=
  ((state.1.step event).1, state.2 ++ [(state.1.step event).2])

end Smelly
