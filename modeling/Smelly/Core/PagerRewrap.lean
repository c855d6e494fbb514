/-
Module: Smelly.Core.PagerRewrap
Purpose: The pager history broken into lines of another width: `pagerhist_rewrap_to` and the reading
  of one character from the ring.
Trusted boundary: human-reviewed model of smelly/history.c; the memory for the new buffer is there,
  and its flag `rewrap_needed`, which is cleared, is left out
-/
import Smelly.Core.PagerHistory
import Smelly.Core.WcsWidth
import Mathlib.Algebra.Ring.Nat

namespace Smelly

open Wcswidth

/-- The loop of `pagerhist_remove_char`: the character, its `record`, and the bytes behind it.
Bytes that are rejected count as the character 0. -/
def removeCharFrom (state : Nat) (codep : UInt32) : Bytes → UInt32 × Bytes × Bytes
  | [] => (codep, [], [])
  | byte :: rest =>
    let (state, codep) := decodeUtf8 state codep byte
    if state = utf8Reject then (0, [byte], rest)
    else if state = utf8Accept then (codep, [byte], rest)
    else
      let (ch, record, rest) := removeCharFrom state codep rest
      (ch, byte :: record, rest)

/-- `pagerhist_remove_char`. -/
def pagerhistRemoveChar (ringbuf : Bytes) : UInt32 × Bytes × Bytes :=
  removeCharFrom utf8Accept 0 ringbuf

theorem removeCharFrom_length (state : Nat) (codep : UInt32) (ringbuf : Bytes) :
    (removeCharFrom state codep ringbuf).2.2.length ≤ ringbuf.length - 1 := by
  induction ringbuf generalizing state codep with
  | nil => exact Nat.le_refl 0
  | cons byte rest ih =>
    rw [removeCharFrom]
    split
    split
    · exact Nat.le_refl _
    · split
      · exact Nat.le_refl _
      · exact Nat.le_trans (ih _ _) (Nat.sub_le _ _)

/-- The locals of `pagerhist_rewrap_to`. -/
structure PagerRewrap where
  nph : PagerHistoryBuf
  numInCurrentLine : Nat := 0
  wcsState : WCSState := {}
deriving DecidableEq, Repr

/-- `WRITE_CHAR`.  The second test reads `num_in_current_line` as an `int`. -/
def PagerRewrap.writeChar (cellsInLine : Nat) (chWidth : Int) (record : Bytes)
    (self : PagerRewrap) : PagerRewrap :=
  let broken :=
    if (cellsInLine : Int) < self.numInCurrentLine + chWidth then
      { self with nph := (pagerhistWriteBytes self.nph [13]).1, numInCurrentLine := 0 }
    else self
  let counted :=
    if 0 ≤ chWidth ∨ -chWidth ≤ (broken.numInCurrentLine : Int).bmod (2 ^ 32) then
      { broken with numInCurrentLine := (broken.numInCurrentLine + chWidth).toNat }
    else broken
  { counted with nph := (pagerhistWriteBytes counted.nph record).1 }

/-- One round of the loop of `pagerhist_rewrap_to`. -/
def PagerRewrap.round (t : WidthTables) (cellsInLine : Nat) (self : PagerRewrap) (ch : UInt32)
    (record : Bytes) : PagerRewrap :=
  if ch = 10 then
    { { self with wcsState := {} }.writeChar cellsInLine 1 record with numInCurrentLine := 0 }
  else if ch ≠ 13 then
    let (wcsState, chWidth) := wcswidthStep t self.wcsState ch
    { self with wcsState := wcsState }.writeChar cellsInLine chWidth record
  else self

/-- The loop of `pagerhist_rewrap_to`, with the bytes that are left in the old ring. -/
def PagerRewrap.loop (t : WidthTables) (cellsInLine : Nat) (self : PagerRewrap) :
    Bytes → PagerRewrap
  | [] => self
  | byte :: rest =>
    let removed := pagerhistRemoveChar (byte :: rest)
    (self.round t cellsInLine removed.1 removed.2.1).loop t cellsInLine removed.2.2
termination_by ringbuf => ringbuf.length
decreasing_by
  exact Nat.lt_succ_of_le (removeCharFrom_length utf8Accept 0 (byte :: rest))

/-- `pagerhist_rewrap_to`. -/
def pagerhistRewrapTo (t : WidthTables) (ph : PagerHistoryBuf) (cellsInLine : Nat) :
    PagerHistoryBuf :=
  if ph.ringbuf.isEmpty then ph
  else
    let nph : PagerHistoryBuf :=
      { maximumSize := ph.maximumSize, capacity := min ph.maximumSize (ph.capacity + 4096) }
    (PagerRewrap.loop t cellsInLine { nph := nph } ph.ringbuf).nph

end Smelly
