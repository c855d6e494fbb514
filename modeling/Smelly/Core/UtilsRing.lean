/-
Module: Smelly.Core.UtilsRing
Purpose: The ring buffer of the command line tools: items in a circle of slots, with the position of
  the oldest one and the number in use.  A slice expression out of range is `none`.
Trusted boundary: human-reviewed model of tools/utils/ring.go
-/

namespace Smelly

namespace Utils

variable {α : Type}

/-- `RingBuffer`.  The positions are `uint64`; they stay below twice the length of a slice, so no sum
of them wraps around. -/
structure RingBuffer (α : Type) where
  buffer : List α
  readPos : Nat := 0
  useCount : Nat := 0
deriving DecidableEq, Repr

/-- `copy(dst[at:], src)`. -/
def copySlice (dst : List α) (start : Nat) (src : List α) : Option (List α) :=
  if start ≤ dst.length then
    some (dst.take start ++ src.take (dst.length - start) ++ dst.drop (start + src.length))
  else none

/-- `p[lo:hi]`. -/
def slice (p : List α) (lo hi : Nat) : Option (List α) :=
  if lo ≤ hi ∧ hi ≤ p.length then some ((p.take hi).drop lo) else none

namespace RingBuffer

/-- `NewRingBuffer`; a new slice holds zero values. -/
def new [Inhabited α] (size : Nat) : RingBuffer α := { buffer := List.replicate size default }

/-- `Len`. -/
def len (r : RingBuffer α) : Nat := r.useCount

/-- `Capacity`. -/
def capacity (r : RingBuffer α) : Nat := r.buffer.length

/-- `Clear`. -/
def clear (r : RingBuffer α) : RingBuffer α := { r with readPos := 0, useCount := 0 }

/-- `slices_to_read`: the two slices and the buffer behind them. -/
def slicesToRead (r : RingBuffer α) (sz : Nat) : Option (List α × List α × RingBuffer α) := do
  let ssz := r.capacity
  let sz := min sz r.useCount
  let head := r.readPos
  let endRead := (head + sz) % ssz
  let after := { r with useCount := r.useCount - sz, readPos := endRead }
  if endRead > head ∨ sz = 0 then
    let a ← slice r.buffer head endRead
    some (a, [], after)
  else
    let firstRead := ssz - head
    let a ← slice r.buffer head (head + firstRead)
    let b ← slice r.buffer 0 (sz - firstRead)
    some (a, b, after)

/-- `ReadTillEmpty`: the number of items read, what the slice `p` then holds, and the buffer. -/
def readTillEmpty (r : RingBuffer α) (p : List α) : Option (Nat × List α × RingBuffer α) := do
  let (a, b, after) ← r.slicesToRead p.length
  let p ← copySlice p 0 a
  let p ← copySlice p a.length b
  some (a.length + b.length, p, after)

/-- `Grow`. -/
def grow [Inhabited α] (r : RingBuffer α) (newSize : Nat) : Option (RingBuffer α) :=
  if newSize ≤ r.capacity then some r
  else do
    let buf := List.replicate newSize default
    let (buf, after) ←
      (if r.useCount > 0 then (r.readTillEmpty buf).map Prod.snd else some (buf, r))
    some { after with buffer := buf, readPos := 0 }

/-- `WriteTillFull`: the number of items written, and the buffer. -/
def writeTillFull (r : RingBuffer α) (p : List α) : Option (Nat × RingBuffer α) :=
  let ssz := r.capacity
  let available := ssz - r.useCount
  let sz := min p.length available
  if sz = 0 then some (0, r)
  else do
    let tail := (r.readPos + r.useCount) % ssz
    let writeEnd := (r.readPos + r.useCount + sz) % ssz
    let p ← slice p 0 sz
    let buffer ←
      (if tail ≤ writeEnd then copySlice r.buffer tail p
        else do
          let firstWrite := ssz - tail
          let first ← slice p 0 firstWrite
          let rest ← slice p firstWrite p.length
          let buffer ← copySlice r.buffer tail first
          copySlice buffer 0 rest)
    some (sz, { r with buffer := buffer, useCount := r.useCount + sz })

/-- The loop of `WriteAllAndDiscardOld`, for so many rounds. -/
def discardLoop : Nat → RingBuffer α → List α → Option (RingBuffer α)
  | 0, _, _ => none
  | rounds + 1, r, p => do
      let (written, r) ← r.writeTillFull p
      let p ← slice p written p.length
      if p.length = 0 then some r
      else
        let (_, _, r) ← r.slicesToRead p.length
        discardLoop rounds r p

/-- `WriteAllAndDiscardOld`. -/
def writeAllAndDiscardOld (r : RingBuffer α) (p : List α) : Option (RingBuffer α) :=
  let ssz := r.capacity
  let left := p.length
  if left ≥ ssz then do
    let extra := left - ssz
    let newest ← slice p extra p.length
    let buffer ← copySlice r.buffer 0 newest
    some { buffer := buffer, readPos := 0, useCount := ssz }
  else discardLoop (left + 2) r p

end RingBuffer

/-- The operations on a ring buffer, with their slices. -/
inductive RingOp (α : Type) where
  | writeTillFull (p : List α)
  | writeAllAndDiscardOld (p : List α)
  | readTillEmpty (p : List α)
  | clear
  | grow (newSize : Nat)
deriving DecidableEq, Repr

/-- What an operation gives back: the number it returns and what its slice then holds. -/
structure RingResult (α : Type) where
  count : Nat := 0
  items : List α := []
deriving DecidableEq, Repr

/-- One operation; the results are logged. -/
def ringStep [Inhabited α] (state : RingBuffer α × List (RingResult α)) (op : RingOp α) :
    Option (RingBuffer α × List (RingResult α)) := do
  let (r, log) := state
  match op with
  | .writeTillFull p =>
    let (n, r) ← r.writeTillFull p
    some (r, log ++ [{ count := n }])
  | .writeAllAndDiscardOld p =>
    let r ← r.writeAllAndDiscardOld p
    some (r, log ++ [{}])
  | .readTillEmpty p =>
    let (n, items, r) ← r.readTillEmpty p
    some (r, log ++ [{ count := n, items := items }])
  | .clear => some (r.clear, log ++ [{}])
  | .grow newSize =>
    let r ← r.grow newSize
    some (r, log ++ [{}])

end Utils

end Smelly
